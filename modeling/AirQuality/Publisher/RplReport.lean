import AirQuality.Publisher.Rpl

/-!
# The RPL report (`rpl_report`)

Seven records in two nested state machines. `rpl_report` falls through `instances`, `dags` and
`parents` with a static state of its own, and then drives `stats`, which has four records and a
static state too, until that is done or has no room.

A pair of static states stands for the records that are still to come (`rplPending`): those of the
outer machine from its state on, followed by those of the inner one. `stats_implements` shows that
the inner machine is a report generator, and `rplReport_implements` that the outer one is, with the
loop around `stats` treated as a single call (`Implements.untilDone`).
-/

namespace AirQuality

open CMem Printf Resumable

/-! ### The function -/

/-- `rpl_state_t`. -/
inductive RplState where
  | instances
  | dags
  | parents
  | stats
  deriving DecidableEq

/-- The static variables of `rpl_report` and of `stats`. -/
structure RplStatic where
  state : RplState
  stats : StatsState
  deriving DecidableEq

/-- What the report shows: the table of instances and the statistics. -/
structure RplEnv where
  table : RplTable
  netstats : RplNetstats

section

variable (ipv6AddrToStr : Ipv6Addr → List Char) (env : RplEnv) (s l : Nat) (t : StatsState)

/-- `case s_stats`, the last one. The loop is given more turns than it can take. -/
def caseStats (nread : Nat) (m : Mem) : RplStatic × Ret :=
  match untilDone stats env.netstats s l (l + 2) t nread m with
  | some (t, ret) => if ret.finished then (⟨.instances, t⟩, ret) else (⟨.stats, t⟩, ret)
  | none => (⟨.stats, t⟩, ⟨m, nread, false⟩)

/-- `case s_parents`, falling through. -/
def caseParents : Nat → Mem → RplStatic × Ret :=
  caseFunction s l ⟨.parents, t⟩ (parents ipv6AddrToStr env.table) (caseStats env s l t)

/-- `case s_dags`, falling through. -/
def caseDags : Nat → Mem → RplStatic × Ret :=
  caseFunction s l ⟨.dags, t⟩ (dags env.table) (caseParents ipv6AddrToStr env s l t)

/-- `case s_instances`, falling through. -/
def caseInstances : Nat → Mem → RplStatic × Ret :=
  caseFunction s l ⟨.instances, t⟩ (instances env.table) (caseDags ipv6AddrToStr env s l t)

/-- **`rpl_report`**, with `MODULE_NETSTATS_RPL`. -/
def rplReport : ReportGen RplStatic RplEnv := fun st env m buf len =>
  match st.state with
  | .instances => caseInstances ipv6AddrToStr env buf len st.stats 0 m
  | .dags => caseDags ipv6AddrToStr env buf len st.stats 0 m
  | .parents => caseParents ipv6AddrToStr env buf len st.stats 0 m
  | .stats => caseStats env buf len st.stats 0 m

/-! ### The records -/

/-- The records of the report. -/
inductive RplRecord where
  | inst
  | dag
  | parents
  | stats (r : StatsState)
  deriving DecidableEq

/-- The text of a record, from the table and the statistics at that moment. -/
def rplText : RplRecord → List Char
  | .inst => instancesText env.table
  | .dag => dagsText env.table
  | .parents => parentsText ipv6AddrToStr env.table
  | .stats r => statsText env.netstats r

end

/-- The records of `stats` that are still to come. -/
def statsPending : StatsState → List StatsState
  | .dio => [.dio, .dis, .dao, .daoAck]
  | .dis => [.dis, .dao, .daoAck]
  | .dao => [.dao, .daoAck]
  | .daoAck => [.daoAck]

/-- The records of the current cycle that are still to come. -/
def rplPending (st : RplStatic) : List RplRecord :=
  match st.state with
  | .instances => .inst :: .dag :: .parents :: (statsPending st.stats).map .stats
  | .dags => .dag :: .parents :: (statsPending st.stats).map .stats
  | .parents => .parents :: (statsPending st.stats).map .stats
  | .stats => (statsPending st.stats).map .stats

/-- Both static variables at their start. -/
def RplStatic.init : RplStatic := ⟨.instances, .dio⟩

/-- The seven records of a cycle. -/
def rplRecords : List RplRecord :=
  [.inst, .dag, .parents, .stats .dio, .stats .dis, .stats .dao, .stats .daoAck]

/-! ### The inner machine -/

section

variable {netstats : RplNetstats} {s l : Nat}

theorem caseDaoAck_serves : ServesFrom (statsText netstats) statsPending .dio s l
    (statsPending .daoAck) (caseDaoAck netstats s l) :=
  ServesFrom.lastRecord (writes_counters _ _) rfl

theorem caseDao_serves : ServesFrom (statsText netstats) statsPending .dio s l
    (statsPending .dao) (caseDao netstats s l) :=
  caseDaoAck_serves.caseRecord (writes_counters _ _) rfl

theorem caseDis_serves : ServesFrom (statsText netstats) statsPending .dio s l
    (statsPending .dis) (caseDis netstats s l) :=
  caseDao_serves.caseRecord (writes_counters _ _) rfl

theorem caseDio_serves : ServesFrom (statsText netstats) statsPending .dio s l
    (statsPending .dio) (caseDio netstats s l) :=
  caseDis_serves.caseRecord (writes_counters _ _) rfl

end

theorem statsPending_endsIn (t : StatsState) : EndsIn .daoAck (statsPending t) := by
  cases t
  case dio => exact ⟨by decide, [.dio, .dis, .dao], rfl⟩
  case dis => exact ⟨by decide, [.dis, .dao], rfl⟩
  case dao => exact ⟨by decide, [.dao], rfl⟩
  case daoAck => exact ⟨by decide, [], rfl⟩

/-- **`stats` is a report generator** for its four records. -/
theorem stats_implements :
    Implements stats [.dio, .dis, .dao, .daoAck] .daoAck statsText statsPending .dio where
  pending_init := rfl
  endsIn := statsPending_endsIn
  call := by
    intro t netstats m buf len h_len
    cases t
    case dio => exact caseDio_serves 0 m h_len
    case dis => exact caseDis_serves 0 m h_len
    case dao => exact caseDao_serves 0 m h_len
    case daoAck => exact caseDaoAck_serves 0 m h_len

theorem statsText_ne_nil (netstats : RplNetstats) (r : StatsState) : statsText netstats r ≠ [] := by
  cases r <;> exact List.append_ne_nil_of_left_ne_nil (by decide) _

/-! ### The outer machine -/

section

variable {ipv6AddrToStr : Ipv6Addr → List Char} {env : RplEnv} {s l : Nat}

theorem sectionText_ne_nil {head : String} (h : head.toList ≠ [])
    (element : RplInstance → List Char) (table : RplTable) : sectionText head element table ≠ [] :=
  List.append_ne_nil_of_left_ne_nil h _

/-- The loop around `stats` serves the records of `stats` that are pending. -/
theorem caseStats_serves (t : StatsState) : ServesFrom (rplText ipv6AddrToStr env) rplPending .init
    s l ((statsPending t).map .stats) (caseStats env s l t) := by
  intro k m hk
  obtain ⟨⟨t', ret⟩, h_loop, h_serves⟩ :=
    stats_implements.untilDone statsText_ne_nil env.netstats hk t m
  -- the records of `stats` are renamed, and nothing else
  have h_fit : fit (fun r => (rplText ipv6AddrToStr env r).length)
      ((statsPending t).map RplRecord.stats) (l - k)
      = ((fit (fun r => (statsText env.netstats r).length) (statsPending t) (l - k)).1.map .stats,
        (fit (fun r => (statsText env.netstats r).length) (statsPending t) (l - k)).2.map .stats) :=
    fit_map RplRecord.stats (fun r => (rplText ipv6AddrToStr env r).length) _ _
  have h_out : caseStats env s l t k m
      = (⟨if ret.finished then .instances else .stats, t'⟩, ret) := by
    unfold caseStats
    rw [h_loop l]
    cases h_fin : ret.finished <;> simp [h_fin]
  -- the four obligations are those of the loop, up to the renaming
  have h_filled := h_serves.filled
  have h_finished := h_serves.finished_iff
  rw [h_out]
  refine ⟨?_, ?_, ?_, ?_⟩ <;> rw [h_fit] <;> simp only
  · rw [List.flatMap_map]
    exact h_filled
  · rw [List.map_eq_nil_iff]
    exact h_finished
  · intro h_nil
    rw [List.map_eq_nil_iff] at h_nil
    -- the loop ended with `*done`: both static variables are back at their start
    obtain rfl : t' = .dio := h_serves.restart h_nil
    rw [if_pos (h_finished.mpr h_nil)]
    rfl
  · intro h_rest
    rw [ne_eq, List.map_eq_nil_iff] at h_rest
    -- it ended early: the outer state stays at `s_stats`, the inner one names the next record
    have h_left : statsPending t' = _ := h_serves.left h_rest
    rw [if_neg fun h_fin => h_rest (h_finished.mp h_fin), ← h_left]
    rfl

theorem caseParents_serves (t : StatsState) : ServesFrom (rplText ipv6AddrToStr env) rplPending
    .init s l (rplPending ⟨.parents, t⟩) (caseParents ipv6AddrToStr env s l t) :=
  (caseStats_serves t).caseFunction (writes_parents ipv6AddrToStr env.table)
    (sectionText_ne_nil (by decide) _ _) rfl

theorem caseDags_serves (t : StatsState) : ServesFrom (rplText ipv6AddrToStr env) rplPending
    .init s l (rplPending ⟨.dags, t⟩) (caseDags ipv6AddrToStr env s l t) :=
  (caseParents_serves t).caseFunction (writes_dags env.table)
    (sectionText_ne_nil (by decide) _ _) rfl

theorem caseInstances_serves (t : StatsState) : ServesFrom (rplText ipv6AddrToStr env) rplPending
    .init s l (rplPending ⟨.instances, t⟩) (caseInstances ipv6AddrToStr env s l t) :=
  (caseDags_serves t).caseFunction (writes_instances env.table)
    (sectionText_ne_nil (by decide) _ _) rfl

end

theorem rplPending_endsIn (st : RplStatic) : EndsIn (.stats .daoAck) (rplPending st) := by
  obtain ⟨state, t⟩ := st
  have h_stats : EndsIn (.stats .daoAck) ((statsPending t).map RplRecord.stats) :=
    (statsPending_endsIn t).map fun _ _ h => RplRecord.stats.inj h
  have h_parents := h_stats.cons (r := .parents) (by simp)
  have h_dag := h_parents.cons (r := .dag) (by simp)
  cases state
  case stats => exact h_stats
  case parents => exact h_parents
  case dags => exact h_dag
  case instances => exact h_dag.cons (by simp)

/-- **`rpl_report` is a report generator** for its seven records. -/
theorem rplReport_implements (ipv6AddrToStr : Ipv6Addr → List Char) :
    Implements (rplReport ipv6AddrToStr) rplRecords (.stats .daoAck) (rplText ipv6AddrToStr)
      rplPending .init where
  pending_init := rfl
  endsIn := rplPending_endsIn
  call := by
    rintro ⟨state, t⟩ env m buf len h_len
    cases state
    case instances => exact caseInstances_serves t 0 m h_len
    case dags => exact caseDags_serves t 0 m h_len
    case parents => exact caseParents_serves t 0 m h_len
    case stats => exact caseStats_serves t 0 m h_len

/-! ### Its cycles -/

/-- **The cycles of `rpl_report`.** Let `before` be any calls from the start on, ending where a
cycle may start, and `cs` any further calls.

* Every call returns less than its buffer's length and leaves a string of that length.
* Every call emits records whole, rendered from the table and the statistics at that very call,
  and sets `*finished` exactly if it emits the last record.
* A complete cycle emits the seven records in order, each exactly once, and leaves both static
  variables at their start; in a cycle that is under way, they stand for the records to come.
* A call that has room for the next record emits at least that one.
* While the data do not change, the outputs of a complete cycle are together the output of a single
  call with room for everything. -/
theorem rplReport_cycles (ipv6AddrToStr : Ipv6Addr → List Char) (before cs : List (Call RplEnv))
    (h_start : AtStart (calls (rplReport ipv6AddrToStr) .init before).2) :
    let gen := rplReport ipv6AddrToStr
    let text := rplText ipv6AddrToStr
    let start := (calls gen .init before).1
    let done := calls gen start cs
    start = .init ∧ (∀ x ∈ done.2, Terminated x) ∧
      (∃ sent : List (List RplRecord),
        List.Forall₂ (fun x rs => output x = rs.flatMap (text x.1.env) ∧
          (x.2.finished = true ↔ .stats .daoAck ∈ rs)) done.2 sent ∧
        (IsCycle done.2 → done.1 = .init ∧ sent.flatten = [.inst, .dag, .parents, .stats .dio,
          .stats .dis, .stats .dao, .stats .daoAck]) ∧
        ((∀ x ∈ done.2, x.2.finished = false) → sent.flatten ++ rplPending done.1 = [.inst, .dag,
          .parents, .stats .dio, .stats .dis, .stats .dao, .stats .daoAck])) ∧
      (∀ c : Call RplEnv, ∃ r rest, rplPending done.1 = r :: rest ∧
        ((text c.env r).length < c.len → ∃ us vs, us ++ vs = rest ∧
          output (c, (gen done.1 c.env c.mem c.buf c.len).2) = (r :: us).flatMap (text c.env))) ∧
      (∀ env, (∀ c ∈ cs, c.env = env) → IsCycle done.2 → ∀ c : Call RplEnv, c.env = env →
        ([.inst, .dag, .parents, .stats .dio, .stats .dis, .stats .dao, .stats .daoAck].flatMap
          (text env)).length < c.len →
        done.2.flatMap output = output (c, (gen start c.env c.mem c.buf c.len).2)) := by
  intro gen text start done
  have h := rplReport_implements ipv6AddrToStr
  have h_init : start = .init := h.atStart before h_start
  refine ⟨h_init, h.terminated start cs, ?_, ?_, ?_⟩
  · obtain ⟨sent, h_sent, h_cycle, h_open⟩ := h.cycle before cs h_start
    refine ⟨sent, h_sent, fun h_done => ⟨?_, h_cycle h_done⟩, h_open⟩
    -- the last call of a complete cycle finishes it
    have h_end : done = calls gen .init cs := by rw [← h_init]
    rw [h_end] at h_done ⊢
    exact h.atStart cs h_done.atStart
  · intro c
    obtain ⟨r, rest, h_pending⟩ := List.exists_cons_of_ne_nil (h.endsIn done.1).ne_nil
    exact ⟨r, rest, h_pending, h.emits_next done.1 c h_pending⟩
  · rintro env h_env h_cycle c rfl h_room
    rw [h_init, (h.whole c h_room).1]
    exact h.split before cs h_start h_env h_cycle

/-- Two calls of a node with an instance, the first with a buffer for the first record only. -/
theorem rplReport_cycles_node :
    let gen := rplReport linkLocalText
    let text := rplText linkLocalText
    let cs : List (Call RplEnv) := [⟨⟨nodeTable, nodeNetstats⟩, fun _ => nul, 0, 60, by decide⟩,
      ⟨⟨nodeTable, nodeNetstats⟩, fun _ => nul, 0, 1500, by decide⟩]
    let start := (calls gen .init []).1
    let done := calls gen start cs
    start = .init ∧ (∀ x ∈ done.2, Terminated x) ∧
      (∃ sent : List (List RplRecord),
        List.Forall₂ (fun x rs => output x = rs.flatMap (text x.1.env) ∧
          (x.2.finished = true ↔ .stats .daoAck ∈ rs)) done.2 sent ∧
        (IsCycle done.2 → done.1 = .init ∧ sent.flatten = [.inst, .dag, .parents, .stats .dio,
          .stats .dis, .stats .dao, .stats .daoAck]) ∧
        ((∀ x ∈ done.2, x.2.finished = false) → sent.flatten ++ rplPending done.1 = [.inst, .dag,
          .parents, .stats .dio, .stats .dis, .stats .dao, .stats .daoAck])) ∧
      (∀ c : Call RplEnv, ∃ r rest, rplPending done.1 = r :: rest ∧
        ((text c.env r).length < c.len → ∃ us vs, us ++ vs = rest ∧
          output (c, (gen done.1 c.env c.mem c.buf c.len).2) = (r :: us).flatMap (text c.env))) ∧
      (∀ env, (∀ c ∈ cs, c.env = env) → IsCycle done.2 → ∀ c : Call RplEnv, c.env = env →
        ([.inst, .dag, .parents, .stats .dio, .stats .dis, .stats .dao, .stats .daoAck].flatMap
          (text env)).length < c.len →
        done.2.flatMap output = output (c, (gen start c.env c.mem c.buf c.len).2)) :=
  rplReport_cycles _ [] _ (fun _ h => absurd h (by simp [calls]))

end AirQuality
