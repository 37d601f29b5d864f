import AirQuality.Web.Visits

/-!
# What the pages show (`case1.js`, `case2.js`)

`Case2` shows the entry it was told last. The callbacks tell it every entry of a snapshot, in order,
and all of them end with the newest entry; `update` sets nothing if the value is shown already, but
what is shown is the value of the last call all the same (`case2_shows_newest`).

`Case1` draws the array of `getLatestValues`. The callback appends the values of a snapshot to the
array and never empties it, so the array is the latest values at the first snapshot only
(`latestValues_iff`).
-/

namespace AirQuality.Web

open Machine

/-! ### The light of `Case2` -/

/-- The component `this` of `Case2` is mounted, and `k` callbacks of `getUpdatesFor("PM0_3")` are
live. -/
structure Watching (app : WebApp) (this : Component) (k : ℕ) : Prop where
  mounted : app.mounted = some this
  page : this.page = .case2
  observers : app.observers = [this]
  feeds : app.feeds = List.replicate k "PM0_3"

/-- **A mounted `Case2` is watching.** -/
theorem watching_visited {acts : List Act} (h_route : routeAfter acts = .case2) :
    ∃ this, Watching (visited acts) this (case2Mounts acts) ∧ 1 ≤ case2Mounts acts := by
  have h := consistent_visited acts
  obtain ⟨this, h_this, h_page, h_observers⟩ := h.on_page (Route.page_eq_case2.mpr h_route)
  refine ⟨this, ⟨h_this, h_page, h_observers, h.feeds⟩, ?_⟩
  rw [case2Mounts_eq, onCase2, h_route]
  exact Nat.le_add_left 1 _

theorem Watching.value {app : WebApp} {this : Component} {k : ℕ} (h : Watching app this k)
    (snapshot : Snapshot) : Watching (app.value snapshot) this k where
  mounted := h.mounted
  page := h.page
  observers := h.observers
  feeds := (WebApp.feeds_value snapshot app).trans h.feeds

theorem Watching.values {app : WebApp} {this : Component} {k : ℕ} (h : Watching app this k)
    (snapshots : List Snapshot) :
    Watching (run WebApp.step app (snapshots.map Act.value)) this k := by
  induction snapshots generalizing app with
  | nil => exact h
  | cons snapshot snapshots ih => exact ih (h.value snapshot)

/-- A component's state is what its updates made of it. -/
theorem Screen.states_tellAll (screen : Screen) (this : Component)
    (notifications : List ChangeDetails) :
    (notifications.foldl (Screen.tellAll [this]) screen).states this.id =
      notifications.foldl Case2State.update (screen.states this.id) := by
  induction notifications generalizing screen with
  | nil => rfl
  | cons changeDetails notifications ih =>
    rw [List.foldl_cons, ih]
    show notifications.foldl _ (Function.update screen.states this.id _ this.id) = _
    rw [Function.update_self, List.foldl_cons]

/-- All callbacks end with the newest entry. -/
theorem Watching.notifications {app : WebApp} {this : Component} {k : ℕ}
    (h : Watching app this k) (hk : 1 ≤ k) (older : Snapshot) (newest : Entry) :
    ∃ before, app.notifications (older ++ [newest]) = before ++ [newVal "PM0_3" newest] := by
  obtain ⟨k, rfl⟩ : ∃ n, k = n + 1 := ⟨k - 1, by omega⟩
  rw [WebApp.notifications_eq, h.feeds, List.replicate_succ', List.flatMap_append,
    List.flatMap_singleton, List.map_append, ← List.append_assoc]
  exact ⟨_, rfl⟩

/-- **One snapshot.** -/
theorem Watching.shows {app : WebApp} {this : Component} {k : ℕ} (h : Watching app this k)
    (hk : 1 ≤ k) (older : Snapshot) {newest : Entry} {x : ℚ}
    (h_number : newest.get "PM0_3" = .number x) :
    (app.value (older ++ [newest])).screen.states this.id = .updatedTo (.number x) := by
  obtain ⟨before, h_before⟩ := h.notifications hk older newest
  have h_value : (newVal "PM0_3" newest).value = .number x := h_number
  calc (app.value (older ++ [newest])).screen.states this.id
      = ((app.notifications (older ++ [newest])).foldl (Screen.tellAll [this])
          app.screen).states this.id := by
        rw [(WebApp.value_case2 h.observers h.page _).1]
    _ = (app.notifications (older ++ [newest])).foldl Case2State.update
          (app.screen.states this.id) := Screen.states_tellAll _ _ _
    _ = (before.foldl Case2State.update (app.screen.states this.id)).update
          (newVal "PM0_3" newest) := by
        rw [h_before, List.foldl_append]
        rfl
    -- whatever the state is by then
    _ = .updatedTo (.number x) := Case2State.update_number _ rfl h_value

/-- The state is that of the last entry, and so is the light. -/
def ShowsLast (state : Case2State) (snapshot : Snapshot) : Prop :=
  ∃ newest x, snapshot.getLast? = some newest ∧ newest.get "PM0_3" = .number x ∧
    state.status = .updated ∧ state.currentVal = .number x ∧
    state.lightBtn = some (if x < 1000 then .green else .red)

/-- **The light is that of the newest entry.** However many callbacks are live and whatever was
shown before, the component shows the last entry after every snapshot. -/
theorem case2_shows_newest {app : WebApp} {this : Component} {k : ℕ} (h : Watching app this k)
    (hk : 1 ≤ k) {snapshots : List Snapshot} (h_entries : ∀ snapshot ∈ snapshots, snapshot ≠ [])
    (h_numeric : ∀ snapshot ∈ snapshots, ∀ entry ∈ snapshot,
      ∃ x, entry.get "PM0_3" = .number x) :
    Along (fun pre snapshot => ShowsLast ((run WebApp.step app
      ((pre ++ [snapshot]).map Act.value)).screen.states this.id) snapshot) snapshots := by
  rintro pre snapshot post rfl
  have h_mem : snapshot ∈ pre ++ snapshot :: post := by simp
  obtain ⟨older, newest, h_last⟩ := (List.eq_nil_or_concat snapshot).resolve_left
    (h_entries snapshot h_mem)
  rw [List.concat_eq_append] at h_last
  obtain ⟨x, h_number⟩ := h_numeric snapshot h_mem newest (by simp [h_last])
  subst h_last
  -- after a snapshot the state is that of its last entry, whatever it was before
  refine ⟨newest, x, List.getLast?_concat .., h_number, ?_⟩
  rw [List.map_append, List.map_singleton, run_concat, WebApp.step_value,
    (h.values pre).shows hk older h_number]
  refine ⟨rfl, rfl, ?_⟩
  simp [Case2State.updatedTo, Case2State.lightBtn]

/-- Two callbacks, and a repeated value. -/
theorem case2_shows_newest_twice :
    Along (fun pre snapshot => ShowsLast ((run WebApp.step
      (visited [.visit .case2, .visit .welcome, .visit .case2])
      ((pre ++ [snapshot]).map Act.value)).screen.states 1) snapshot)
      [[.ofNumber "PM0_3" 1500], [.ofNumber "PM0_3" 1500, .ofNumber "PM0_3" 999]] :=
  case2_shows_newest
    (⟨rfl, rfl, rfl, rfl⟩ : Watching (visited [.visit .case2, .visit .welcome, .visit .case2])
      ⟨1, .case2⟩ 2)
    (by decide) (by decide) (by simp)

/-! ### The arrays of `Case1` -/

/-- The values that a chart is meant to show. -/
def latestValuesOf (numOfVal : ℕ) (pType : String) (snapshot : Snapshot) : List JsValue :=
  (limitToLast numOfVal snapshot).map (·.get pType)

/-- The array captured by the callback at position `handle`. -/
def WebApp.dataOf (app : WebApp) (handle : ℕ) : List JsValue :=
  match app.listeners[handle]? with
  | some (.latestValues _ _ data) => data
  | _ => []

def Act.snapshot : Act → Option Snapshot
  | .value snapshot => some snapshot
  | _ => none

theorem WebApp.listeners_componentDidMount (this : Component) (app : WebApp) :
    app.listeners <+: (app.componentDidMount this).listeners := by
  unfold WebApp.componentDidMount
  cases this.page with
  | case1 => exact (List.prefix_append _ _).trans (List.prefix_append _ _)
  | case2 => exact List.prefix_append _ _

theorem WebApp.listeners_render (this : Component) (app : WebApp) :
    app.listeners <+: (app.render this).listeners := by
  unfold WebApp.render
  cases this.page with
  | case1 => exact List.prefix_append _ _
  | case2 => exact List.prefix_refl _

theorem WebApp.listeners_mount (page : Page) (app : WebApp) :
    app.listeners <+: (app.mount page).listeners := by
  let this : Component := ⟨app.created, page⟩
  exact (WebApp.listeners_render this (app.construct this)).trans
    (WebApp.listeners_componentDidMount this _)

/-- Visits release no callback. -/
theorem WebApp.listeners_visit (route : Route) (app : WebApp) :
    app.listeners <+: (app.visit route).listeners := by
  have h_unmount : (app.mounted.elim app fun this => app.unmount this).listeners =
      app.listeners := by
    cases app.mounted with
    | none => rfl
    | some this => rfl
  unfold WebApp.visit
  split
  · exact List.prefix_refl _
  · rw [← h_unmount]
    cases route.page with
    | none => exact List.prefix_refl _
    | some page => exact WebApp.listeners_mount _ _

theorem WebApp.listeners_rerender (app : WebApp) :
    app.listeners <+: app.rerender.listeners := by
  unfold WebApp.rerender
  cases app.mounted with
  | none => exact List.prefix_refl _
  | some this => exact WebApp.listeners_render this app

/-- What is registered stays where it is. -/
theorem getElem?_of_prefix {listeners listeners' : List Listener} (h : listeners <+: listeners')
    {handle : ℕ} {listener : Listener} (h_some : listeners[handle]? = some listener) :
    listeners'[handle]? = some listener := by
  obtain ⟨more, rfl⟩ := h
  obtain ⟨h_lt, -⟩ := List.getElem?_eq_some_iff.mp h_some
  rw [List.getElem?_append_left h_lt, h_some]

/-- **What a step does to a callback.** A value event calls it; nothing else touches it. -/
theorem WebApp.listener_step {app : WebApp} {handle : ℕ} {listener : Listener}
    (h : app.listeners[handle]? = some listener) (act : Act) :
    (app.step act).listeners[handle]? = some (act.snapshot.elim listener listener.after) := by
  cases act with
  | visit route => exact getElem?_of_prefix (WebApp.listeners_visit route app) h
  | rerender => exact getElem?_of_prefix (WebApp.listeners_rerender app) h
  | value snapshot =>
    rw [WebApp.step_value, WebApp.value_listeners, List.getElem?_map, h]
    rfl

/-- **What a run does to an array.** The values of every snapshot are appended to it. -/
theorem WebApp.data_run {app : WebApp} {handle numOfVal : ℕ} {pType : String}
    (h : app.listeners[handle]? = some (.latestValues numOfVal pType [])) (acts : List Act) :
    (run WebApp.step app acts).listeners[handle]? = some (.latestValues numOfVal pType
      ((acts.filterMap Act.snapshot).flatMap (latestValuesOf numOfVal pType))) := by
  induction acts using List.reverseRecOn with
  | nil => exact h
  | append_singleton acts act ih =>
    rw [run_concat, WebApp.listener_step ih, List.filterMap_append, List.flatMap_append]
    cases act with
    | visit route => simp [Act.snapshot]
    | rerender => simp [Act.snapshot]
    | value snapshot => simp [Act.snapshot, Listener.after, latestValuesOf]

/-- The array holds the values of `snapshot`, of which there are at most `numOfVal`. -/
structure Charted (data : List JsValue) (numOfVal : ℕ) (pType : String) (snapshot : Snapshot) :
    Prop where
  current : data = latestValuesOf numOfVal pType snapshot
  bounded : data.length ≤ numOfVal

theorem latestValuesOf_eq_nil {numOfVal : ℕ} (h_num : 1 ≤ numOfVal) {pType : String}
    {snapshot : Snapshot} : latestValuesOf numOfVal pType snapshot = [] ↔ snapshot = [] := by
  unfold latestValuesOf
  rw [List.map_eq_nil_iff, limitToLast_eq_nil h_num]

theorem charted_iff {numOfVal : ℕ} (h_num : 1 ≤ numOfVal) (pType : String)
    (earlier : List Snapshot) (snapshot : Snapshot) :
    Charted ((earlier ++ [snapshot]).flatMap (latestValuesOf numOfVal pType)) numOfVal pType
      snapshot ↔ ∀ s ∈ earlier, s = [] := by
  rw [List.flatMap_append, List.flatMap_singleton]
  constructor
  · rintro ⟨h_current, -⟩ s hs
    -- the array is its own end, so nothing stands in front of that
    have h_earlier := List.flatMap_eq_nil_iff.mp (List.append_left_eq_self.mp h_current)
    exact (latestValuesOf_eq_nil h_num).mp (h_earlier s hs)
  · intro h
    have h_earlier : earlier.flatMap (latestValuesOf numOfVal pType) = [] :=
      List.flatMap_eq_nil_iff.mpr fun s hs => (latestValuesOf_eq_nil h_num).mpr (h s hs)
    rw [h_earlier, List.nil_append]
    refine ⟨rfl, ?_⟩
    unfold latestValuesOf
    rw [List.length_map, length_limitToLast]
    exact Nat.min_le_left _ _

theorem mem_snapshots {acts : List Act} {snapshot : Snapshot} :
    snapshot ∈ acts.filterMap Act.snapshot ↔ .value snapshot ∈ acts := by
  rw [List.mem_filterMap]
  constructor
  · rintro ⟨act, h_act, h_snapshot⟩
    cases act with
    | value s => rw [← Option.some.inj h_snapshot]; exact h_act
    | visit route => cases h_snapshot
    | rerender => cases h_snapshot
  · exact fun h => ⟨_, h, rfl⟩

/-- The array after one more snapshot. -/
theorem charted_run_iff (app : WebApp) {numOfVal : ℕ} (h_num : 1 ≤ numOfVal) (pType : String)
    (pre : List Act) (snapshot : Snapshot) :
    Charted ((run WebApp.step (app.getLatestValues numOfVal pType).2
        (pre ++ [.value snapshot])).dataOf (app.getLatestValues numOfVal pType).1) numOfVal pType
        snapshot ↔
      ∀ earlier, .value earlier ∈ pre → earlier = [] := by
  have h_registered : (app.getLatestValues numOfVal pType).2.listeners[
      (app.getLatestValues numOfVal pType).1]? = some (.latestValues numOfVal pType []) :=
    List.getElem?_concat_length ..
  unfold WebApp.dataOf
  rw [WebApp.data_run h_registered, List.filterMap_append]
  refine (charted_iff h_num pType (pre.filterMap Act.snapshot) snapshot).trans ?_
  exact forall_congr' fun earlier => by rw [mem_snapshots]

/-- After `getLatestValues(numOfVal, pType)` and any acts, the array has the values of the snapshot
that was delivered last, at every event. -/
def StaysCurrent (app : WebApp) (numOfVal : ℕ) (pType : String) (acts : List Act) : Prop :=
  Along (fun pre act => ∀ snapshot, act = .value snapshot →
    Charted ((run WebApp.step (app.getLatestValues numOfVal pType).2 (pre ++ [act])).dataOf
      (app.getLatestValues numOfVal pType).1) numOfVal pType snapshot) acts

/-- No snapshot is delivered after one that has entries. -/
def NoneAfterEntries (acts : List Act) : Prop :=
  Along (fun pre act => ∀ snapshot, act = .value snapshot →
    ∀ earlier, .value earlier ∈ pre → earlier = []) acts

/-- **When an array is the latest values.** From any state, the array of
`getLatestValues(numOfVal, pType)` is the values of every snapshot delivered afterwards if and only
if none is delivered after one that has entries. -/
theorem latestValues_iff (app : WebApp) {numOfVal : ℕ} (h_num : 1 ≤ numOfVal) (pType : String)
    (acts : List Act) : StaysCurrent app numOfVal pType acts ↔ NoneAfterEntries acts := by
  unfold StaysCurrent NoneAfterEntries
  constructor
  · rintro h pre act post h_split snapshot rfl
    exact (charted_run_iff app h_num pType pre snapshot).mp (h pre _ post h_split snapshot rfl)
  · rintro h pre act post h_split snapshot rfl
    exact (charted_run_iff app h_num pType pre snapshot).mpr (h pre _ post h_split snapshot rfl)

/-- A chart of `Case1` until the first snapshot with entries. -/
theorem latestValues_iff_twelve :
    StaysCurrent .initial 12 "PM2_5" [.value [], .value [.ofNumber "PM2_5" 7]] ↔
      NoneAfterEntries [.value [], .value [.ofNumber "PM2_5" 7]] :=
  latestValues_iff .initial (by decide : 1 ≤ 12) "PM2_5" _

/-- The chart of two values has three after the second event: the first value is drawn twice. -/
theorem latestValues_repeated :
    ¬ StaysCurrent .initial 2 "PM2_5" [.value [.ofNumber "PM2_5" 7],
      .value [.ofNumber "PM2_5" 7, .ofNumber "PM2_5" 8]] := by
  intro h
  have h_second := h [.value [.ofNumber "PM2_5" 7]] _ [] rfl _ rfl
  have h_bounded := h_second.bounded
  revert h_bounded
  decide

end AirQuality.Web
