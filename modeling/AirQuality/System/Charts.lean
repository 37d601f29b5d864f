import AirQuality.System.Alarm

/-!
# What the charts are drawn from

The page `Case1` has two charts, and each has an array of its own, which a callback of its own
fills. The arrays belong together all the same: at every value event both get the last twelve
records, the one their `PM2_5` and the other their `PM10`, in one order. So a point of one chart and
the point above it are of one report of the node, however the threads interleave and whatever the
network does (`deployment_charts`). Neither array is ever emptied, so a record is drawn again at
every value event until twelve others have followed it.
-/

namespace AirQuality

open Machine Network

section

variable {broker : Broker} {readers : Readers}

/-- The records that a step draws: those that a value event has for the charts. -/
def drawnAt (s : State Eui64 Node Publication (Backend broker)) : Happening → List Post
  | .own .value => s.receiver.subscriber.database.rtake 12
  | _ => []

section

variable (broker readers)

/-- The records drawn in the course of `js`. -/
def drawn (is js : List Happening) : List Post :=
  trace (Network.step nodes (Backend.step readers)) drawnAt (deployment broker readers is) js

/-- What the pages go through in the course of `js`. -/
def actsDuring (is js : List Happening) : List Web.Act :=
  trace (Network.step nodes (Backend.step readers)) (pageActs readers)
    (deployment broker readers is) js

end

theorem drawn_concat (is js : List Happening) (j : Happening) :
    drawn broker readers is (js ++ [j])
      = drawn broker readers is js ++ drawnAt (deployment broker readers (is ++ js)) j := by
  unfold drawn deployment
  rw [trace_concat, run_append]

theorem actsDuring_concat (is js : List Happening) (j : Happening) :
    actsDuring broker readers is (js ++ [j]) = actsDuring broker readers is js
      ++ pageActs readers (deployment broker readers (is ++ js)) j := by
  unfold actsDuring deployment
  rw [trace_concat, run_append]

/-! ### Opening the page -/

/-- The callbacks of `Case1`, those of the charts behind that of the first rendering. -/
def case1Callbacks : List Web.Listener :=
  [.latestEntry none, .latestValues 12 "PM2_5" [], .latestValues 12 "PM10" []]

theorem listeners_opened {app : Web.WebApp}
    (h_elsewhere : app.mounted.map Web.Component.page ≠ Web.Route.page .case1) :
    (app.step (.visit .case1)).listeners = app.listeners ++ case1Callbacks := by
  show (Web.WebApp.visit .case1 app).listeners = _
  unfold Web.WebApp.visit
  rw [if_neg h_elsewhere]
  have h_unmount : (app.mounted.elim app fun this => app.unmount this).listeners
      = app.listeners := by
    cases app.mounted <;> rfl
  calc _ = (((app.mounted.elim app fun this => app.unmount this).listeners
          ++ [.latestEntry none]) ++ [.latestValues 12 "PM2_5" []])
          ++ [.latestValues 12 "PM10" []] := rfl
    _ = _ := by rw [h_unmount, List.append_assoc, List.append_assoc]; rfl

theorem page_of_elsewhere {is : List Happening} (h : shownRoute is ≠ .case1) :
    (deployment broker readers is).receiver.app.mounted.map Web.Component.page
      ≠ Web.Route.page .case1 := by
  obtain ⟨acts, h_app, h_route⟩ := @deployment_visited broker readers is
  rw [h_app, (Web.consistent_visited acts).page, h_route]
  exact fun h_page => h (Web.Route.page_eq_case1.mp h_page)

/-! ### Drawing -/

/-- The values that the acts of a run append to an array of `Case1`. -/
def appended (pType : String) (acts : List Web.Act) : List Web.JsValue :=
  (acts.filterMap Web.Act.snapshot).flatMap (Web.latestValuesOf 12 pType)

/-- What one step draws, and what it appends. -/
theorem appended_step (is : List Happening) (j : Happening) :
    ∃ reports : List (ℕ × DustBins),
      drawnAt (deployment broker readers is) j = reports.map (fun r => storedPost r.1 r.2) ∧
      ∀ pType, appended pType (pageActs readers (deployment broker readers is) j)
        = reports.map fun r => (storedEntry r.1 r.2).get pType := by
  cases j with
  | act eui i => exact ⟨[], rfl, fun _ => rfl⟩
  | deliver n => exact ⟨[], rfl, fun _ => rfl⟩
  | own a =>
    cases a with
    | reconnect | answer | poll | visit | rerender => exact ⟨[], rfl, fun _ => rfl⟩
    | value =>
      obtain ⟨reports, h_records, h_snapshot⟩ := @exists_reports broker readers is
      have h_acts : pageActs readers (deployment broker readers is) (.own .value)
          = [.value (reports.map fun r => storedEntry r.1 r.2)] := by
        rw [← h_snapshot]
        rfl
      refine ⟨reports.rtake 12, ?_, fun pType => ?_⟩
      · show (records broker readers is).rtake 12 = _
        rw [h_records, List.rtake, List.rtake, List.map_drop, List.length_map]
      · rw [h_acts]
        -- one snapshot, of which the last twelve are appended
        show (List.map _ (List.rtake _ 12)) ++ [] = _
        rw [List.append_nil, List.rtake, List.rtake, List.length_map, ← List.map_drop, List.map_map]
        rfl

/-- **What a run draws, and what it appends.** -/
theorem appended_run (is js : List Happening) : ∃ reports : List (ℕ × DustBins),
    drawn broker readers is js = reports.map (fun r => storedPost r.1 r.2) ∧
    ∀ pType, appended pType (actsDuring broker readers is js)
      = reports.map fun r => (storedEntry r.1 r.2).get pType := by
  induction js using List.reverseRecOn with
  | nil => exact ⟨[], rfl, fun _ => rfl⟩
  | append_singleton js j ih =>
    obtain ⟨earlier, h_drawn, h_appended⟩ := ih
    obtain ⟨now, h_drawn', h_appended'⟩ := @appended_step broker readers (is ++ js) j
    refine ⟨earlier ++ now, ?_, fun pType => ?_⟩
    · rw [drawn_concat, h_drawn, h_drawn', List.map_append]
    · rw [actsDuring_concat]
      unfold appended at h_appended h_appended' ⊢
      rw [List.filterMap_append, List.flatMap_append, h_appended, h_appended', List.map_append]

/-- An array after a run, from when it was made. -/
theorem dataOf_run {is : List Happening} {pType : String} {handle : ℕ}
    (h : (deployment broker readers is).receiver.app.listeners[handle]?
      = some (.latestValues 12 pType [])) (js : List Happening) :
    (deployment broker readers (is ++ js)).receiver.app.dataOf handle
      = appended pType (actsDuring broker readers is js) := by
  let app (s : State Eui64 Node Publication (Backend broker)) : Web.WebApp := s.receiver.app
  have h_app : app (deployment broker readers (is ++ js))
      = run Web.WebApp.step (app (deployment broker readers is))
          (actsDuring broker readers is js) := by
    unfold deployment
    rw [run_append]
    exact run_projection app (@step_app broker readers) js
  show (app (deployment broker readers (is ++ js))).dataOf handle = _
  unfold Web.WebApp.dataOf
  rw [h_app, Web.WebApp.data_run h]
  rfl

end

/-- **The charts show the same reports.** From the moment that `Case1` is opened, whatever happens
in the deployment, the records drawn, which are the last twelve of the database at every value event
since, are those of reports `reports`; and the two arrays of the charts hold, in this order, the
bins for 2.5 and for 10 micrometres of these very reports. -/
theorem deployment_charts (broker : Broker) (readers : Readers) (is js : List Happening)
    (h_elsewhere : shownRoute is ≠ .case1) :
    let app := (deployment broker readers (is ++ .own (.visit .case1) :: js)).receiver.app
    let callbacks := (deployment broker readers is).receiver.app.listeners.length
    ∃ reports : List (ℕ × DustBins),
      drawn broker readers (is ++ [.own (.visit .case1)]) js
        = reports.map (fun r => storedPost r.1 r.2) ∧
      app.dataOf (callbacks + 1) = reports.map (fun r => .number r.2.db2_5.toNat) ∧
      app.dataOf (callbacks + 2) = reports.map fun r => .number r.2.db10.toNat := by
  intro app callbacks
  obtain ⟨reports, h_drawn, h_appended⟩ :=
    @appended_run broker readers (is ++ [.own (.visit .case1)]) js
  have h_listeners :
      (deployment broker readers (is ++ [.own (.visit .case1)])).receiver.app.listeners
        = (deployment broker readers is).receiver.app.listeners ++ case1Callbacks := by
    rw [deployment_concat]
    exact listeners_opened (page_of_elsewhere h_elsewhere)
  -- the arrays differ in nothing but their place and their field
  have h_array (n : ℕ) (pType : String)
      (h : ((deployment broker readers is).receiver.app.listeners ++ case1Callbacks)[callbacks + n]?
        = some (.latestValues 12 pType [])) :
      app.dataOf (callbacks + n) = reports.map fun r => (storedEntry r.1 r.2).get pType := by
    show (deployment broker readers (is ++ .own (.visit .case1) :: js)).receiver.app.dataOf _ = _
    rw [List.append_cons, dataOf_run (by rw [h_listeners]; exact h) js, h_appended]
  refine ⟨reports, h_drawn, h_array 1 "PM2_5" ?_, h_array 2 "PM10" ?_⟩
  · rw [List.getElem?_append_right (Nat.le_add_right _ _), Nat.add_sub_cancel_left]
    rfl
  · rw [List.getElem?_append_right (Nat.le_add_right _ _), Nat.add_sub_cancel_left]
    rfl

/-- A second report arrives between two value events. -/
def drawnTwice : List Happening := .own .value :: reportFollows ++ [.own .value]

/-- The first report is drawn at both events, so there are three points. -/
theorem deployment_charts_threePoints :
    let app := (deployment Broker.listing .ofIntegers
      (opened ++ .own (.visit .case1) :: drawnTwice)).receiver.app
    (app.dataOf 2).length = 3 ∧ (app.dataOf 3).length = 3 := by
  have h_callbacks :
      (deployment Broker.listing .ofIntegers opened).receiver.app.listeners.length = 1 := by
    decide +kernel
  have h_length :
      (drawn Broker.listing .ofIntegers (opened ++ [.own (.visit .case1)]) drawnTwice).length
        = 3 := by
    decide +kernel
  obtain ⟨reports, h_drawn, h_pm2_5, h_pm10⟩ :=
    deployment_charts Broker.listing .ofIntegers opened drawnTwice (by decide)
  rw [h_drawn, List.length_map] at h_length
  rw [h_callbacks] at h_pm2_5 h_pm10
  intro app
  constructor
  · rw [h_pm2_5, List.length_map, h_length]
  · rw [h_pm10, List.length_map, h_length]

end AirQuality
