import AirQuality.Web.Visits

/-!
# What the callbacks cost

A page never releases a callback. `Case2` leaves one behind each time it is mounted, `Case1` three,
and one more whenever it is rendered again. From then on every value event pays for them: with
`Case2` shown, each callback of an earlier visit tells the component every entry once more, and with
`Case1` shown each of them ends in an exception.

A value event calls all callbacks. But Firebase also calls single ones: a callback that was
registered a moment ago is called with the data that is there already, and of a change only those
are told whose query it concerns. So the events of this module are the acts of the user and of the
database, and single calls of any callback at any time (`PageEvent`). Over a whole run of them, this
is what was registered, told and thrown, no more and no less (`pageRun_costs`).
-/

namespace AirQuality.Web

open Machine

/-! ### Single calls -/

/-- Callback number `k` is called with a snapshot. -/
def WebApp.call (k : ℕ) (snapshot : Snapshot) (app : WebApp) : WebApp :=
  match app.listeners[k]? with
  | none => app
  | some listener =>
    match listener.call app.observers snapshot app.screen with
    | .ok listener screen =>
      { app with listeners := app.listeners.set k listener, screen := screen }
    | .error e screen => { app with screen := screen, uncaught := app.uncaught ++ [e] }

section

variable {app : WebApp} {k : ℕ} {listener : Listener} {snapshot : Snapshot}

theorem WebApp.call_of_none (h : app.listeners[k]? = none) : app.call k snapshot = app := by
  unfold WebApp.call
  simp only [h]

theorem WebApp.call_of_ok (h : app.listeners[k]? = some listener) {listener' : Listener}
    {screen : Screen}
    (h_call : listener.call app.observers snapshot app.screen = .ok listener' screen) :
    app.call k snapshot
      = { app with listeners := app.listeners.set k listener', screen := screen } := by
  unfold WebApp.call
  simp only [h, h_call]

theorem WebApp.call_of_error (h : app.listeners[k]? = some listener) {e : JsError}
    {screen : Screen}
    (h_call : listener.call app.observers snapshot app.screen = .error e screen) :
    app.call k snapshot = { app with screen := screen, uncaught := app.uncaught ++ [e] } := by
  unfold WebApp.call
  simp only [h, h_call]

end

/-- What happens to the pages. -/
inductive PageEvent where
  | act (act : Act)
  | call (k : ℕ) (snapshot : Snapshot)
  deriving DecidableEq

def WebApp.happen (app : WebApp) : PageEvent → WebApp
  | .act act => app.step act
  | .call k snapshot => app.call k snapshot

/-- The application after the events `es`. -/
def pageRun (es : List PageEvent) : WebApp := run WebApp.happen .initial es

/-- The acts among the events. -/
def actsOf (es : List PageEvent) : List Act :=
  es.filterMap fun e => match e with
    | .act act => some act
    | .call _ _ => none

@[simp] theorem actsOf_act (es : List PageEvent) (act : Act) :
    actsOf (es ++ [.act act]) = actsOf es ++ [act] := List.filterMap_append

@[simp] theorem actsOf_call (es : List PageEvent) (k : ℕ) (snapshot : Snapshot) :
    actsOf (es ++ [.call k snapshot]) = actsOf es :=
  List.filterMap_append.trans (List.append_nil _)

/-! ### Counting -/

def onCase1 (acts : List Act) : Bool := decide (routeAfter acts = .case1)

/-- How many times `Case1` was mounted. -/
def case1Mounts (acts : List Act) : ℕ := countAlong (rises onCase1) acts

/-- How many times it was rendered again. -/
def case1Rerenders (acts : List Act) : ℕ :=
  countAlong (fun pre act => onCase1 pre && decide (act = .rerender)) acts

/-- The callbacks that a page registers when it is mounted, by the parameter that they notify. -/
def Page.registers : Page → List (Option String)
  | .case1 => [none, none, none]
  | .case2 => [some "PM0_3"]

/-- The callbacks that an act registers. -/
def registeredAt (pre : List Act) : Act → List (Option String)
  | .visit route =>
    if (routeAfter pre).page = route.page then [] else route.page.elim [] Page.registers
  | .rerender => if onCase1 pre then [none] else []
  | .value _ => []

/-- The callbacks registered so far, in order. -/
def registered (acts : List Act) : List (Option String) := gatherAlong registeredAt acts

/-- Callback number `k` is one of `getUpdatesFor`. -/
def notifies (acts : List Act) (k : ℕ) : Bool := (registered acts)[k]?.join.isSome

/-- The calls of `update()` in an event. -/
def updatesAt (pre : List PageEvent) : PageEvent → ℕ
  | .act (.value snapshot) =>
    if routeAfter (actsOf pre) = .case2 then case2Mounts (actsOf pre) * snapshot.length else 0
  | .call k snapshot =>
    if routeAfter (actsOf pre) = .case2 ∧ notifies (actsOf pre) k then snapshot.length else 0
  | _ => 0

/-- The exceptions in an event. -/
def exceptionsAt (pre : List PageEvent) : PageEvent → ℕ
  | .act (.value snapshot) =>
    if routeAfter (actsOf pre) = .case1 ∧ snapshot ≠ [] then case2Mounts (actsOf pre) else 0
  | .call k snapshot =>
    if routeAfter (actsOf pre) = .case1 ∧ snapshot ≠ [] ∧ notifies (actsOf pre) k then 1 else 0
  | _ => 0

/-! ### What was registered -/

/-- A visit mounts a page unless it is shown already. -/
theorem mounts_visit (acts : List Act) (route : Route) :
    (rises onCase2 acts (.visit route)).toNat + 3 * (rises onCase1 acts (.visit route)).toNat
      = (registeredAt acts (.visit route)).length := by
  have h_route : routeAfter (acts ++ [.visit route]) = route := routeAfter_concat _ _
  unfold rises onCase1 onCase2 registeredAt
  rw [h_route]
  generalize routeAfter acts = old
  cases old <;> cases route <;> rfl

/-- Nothing else does. -/
theorem mounts_other (acts : List Act) {act : Act} (h : act.target = none) :
    rises onCase2 acts act = false ∧ rises onCase1 acts act = false := by
  have h_route : routeAfter (acts ++ [act]) = routeAfter acts := by
    rw [routeAfter_concat, h]
    rfl
  unfold rises onCase1 onCase2
  rw [h_route]
  exact ⟨Bool.not_and_self _, Bool.not_and_self _⟩

/-- **How many were registered.** -/
theorem length_registered (acts : List Act) : (registered acts).length
    = case2Mounts acts + 3 * case1Mounts acts + case1Rerenders acts := by
  induction acts using List.reverseRecOn with
  | nil => rfl
  | append_singleton acts act ih =>
    unfold registered case1Mounts case1Rerenders at ih ⊢
    rw [gatherAlong_concat, List.length_append, ih, case2Mounts_concat, countAlong_concat,
      countAlong_concat]
    cases act with
    | visit route =>
      have h_rerender : (onCase1 acts && decide (Act.visit route = .rerender)) = false := by simp
      -- what the visit registers is what it mounts
      rw [← mounts_visit, h_rerender, Bool.toNat_false]
      omega
    | rerender =>
      obtain ⟨h_case2, h_case1⟩ := @mounts_other acts .rerender rfl
      have h_one : (registeredAt acts .rerender).length = (onCase1 acts).toNat := by
        unfold registeredAt
        cases onCase1 acts <;> rfl
      rw [h_one, h_case2, h_case1, decide_eq_true rfl, Bool.and_true, Bool.toNat_false]
      omega
    | value snapshot =>
      obtain ⟨h_case2, h_case1⟩ := @mounts_other acts (.value snapshot) rfl
      have h_rerender : (onCase1 acts && decide (Act.value snapshot = .rerender)) = false := by simp
      rw [h_case2, h_case1, h_rerender]
      rfl

/-- The callbacks, by the parameter that they notify. -/
def WebApp.kinds (app : WebApp) : List (Option String) := app.listeners.map Listener.feed

/-- The live callbacks of `getUpdatesFor` are among them. -/
theorem WebApp.feeds_eq_kinds (app : WebApp) : app.feeds = app.kinds.reduceOption := by
  unfold WebApp.feeds WebApp.kinds List.reduceOption
  rw [List.filterMap_map]
  rfl

theorem WebApp.kinds_mount (page : Page) (app : WebApp) :
    (app.mount page).kinds = app.kinds ++ page.registers := by
  cases page with
  | case1 =>
    show (((app.listeners ++ [_]) ++ [_]) ++ [_]).map Listener.feed = _
    rw [List.map_append, List.map_append, List.map_append, List.append_assoc, List.append_assoc]
    rfl
  | case2 => exact List.map_append

/-- Of the pages, `Case1` registers a callback whenever it is rendered. -/
theorem WebApp.kinds_render (this : Component) (app : WebApp) :
    (app.render this).kinds = app.kinds ++ if this.page = .case1 then [none] else [] := by
  obtain ⟨id, page⟩ := this
  cases page with
  | case1 => exact List.map_append
  | case2 => exact (List.append_nil _).symm

section

variable {acts : List Act} {app : WebApp}

/-- **What an act registers.** -/
theorem Consistent.kinds_step (h : Consistent acts app) (act : Act) :
    (app.step act).kinds = app.kinds ++ registeredAt acts act := by
  cases act with
  | visit route =>
    show (app.visit route).kinds = app.kinds
      ++ if (routeAfter acts).page = route.page then [] else route.page.elim [] Page.registers
    unfold WebApp.visit
    rw [h.page]
    split
    · exact (List.append_nil _).symm
    · have h_unmount : (app.mounted.elim app fun this => app.unmount this).kinds = app.kinds := by
        cases app.mounted <;> rfl
      cases route.page with
      | none => exact h_unmount.trans (List.append_nil _).symm
      | some page =>
        exact (WebApp.kinds_mount page _).trans (congrArg (· ++ page.registers) h_unmount)
  | rerender =>
    have h_page := h.page
    show (app.mounted.elim app fun this => app.render this).kinds
      = app.kinds ++ if decide (routeAfter acts = .case1) then [none] else []
    cases h_mounted : app.mounted with
    | none =>
      rw [h_mounted] at h_page
      have h_route : routeAfter acts ≠ .case1 := fun h_case1 => by
        rw [h_case1] at h_page
        cases h_page
      rw [decide_eq_false h_route]
      exact (List.append_nil _).symm
    | some this =>
      rw [h_mounted, Option.map_some] at h_page
      -- the component that is rendered is that of the page
      have h_case1 : routeAfter acts = .case1 ↔ this.page = .case1 := by
        rw [← Route.page_eq_case1, ← h_page, Option.some_inj]
      simp only [decide_eq_true_eq, h_case1]
      exact WebApp.kinds_render this app
  | value snapshot =>
    unfold WebApp.kinds
    rw [WebApp.step_value, WebApp.value_listeners, List.map_map]
    refine (List.map_congr_left fun listener _ => ?_).trans (List.append_nil _).symm
    exact Listener.feed_after listener snapshot

/-- A single call registers nothing. -/
theorem WebApp.kinds_call (k : ℕ) (snapshot : Snapshot) (app : WebApp) :
    (app.call k snapshot).kinds = app.kinds := by
  cases h_k : app.listeners[k]? with
  | none => rw [WebApp.call_of_none h_k]
  | some listener =>
    have h_after := Listener.call_after app.observers snapshot listener app.screen
    cases h_call : listener.call app.observers snapshot app.screen with
    | error e screen =>
      rw [WebApp.call_of_error h_k h_call]
      rfl
    | ok listener' screen =>
      -- the callback keeps its place, and what it is for
      rw [h_call] at h_after
      have h_after : listener' = listener.after snapshot := h_after
      obtain ⟨h_lt, rfl⟩ := List.getElem?_eq_some_iff.mp h_k
      rw [WebApp.call_of_ok h_k h_call, h_after]
      unfold WebApp.kinds
      rw [List.map_set, Listener.feed_after, ← List.map_set, List.set_getElem_self]

/-- Nor does it change anything else in the registries. -/
theorem Consistent.call (h : Consistent acts app) (k : ℕ) (snapshot : Snapshot) :
    Consistent acts (app.call k snapshot) := by
  have h_same : (app.call k snapshot).mounted = app.mounted ∧
      (app.call k snapshot).observers = app.observers := by
    cases h_k : app.listeners[k]? with
    | none =>
      rw [WebApp.call_of_none h_k]
      exact ⟨rfl, rfl⟩
    | some listener =>
      cases h_call : listener.call app.observers snapshot app.screen with
      | ok listener' screen =>
        rw [WebApp.call_of_ok h_k h_call]
        exact ⟨rfl, rfl⟩
      | error e screen =>
        rw [WebApp.call_of_error h_k h_call]
        exact ⟨rfl, rfl⟩
  constructor
  · rw [h_same.1]
    exact h.page
  · rw [h_same.1, h_same.2]
    exact h.observers
  · rw [WebApp.feeds_eq_kinds, WebApp.kinds_call, ← WebApp.feeds_eq_kinds]
    exact h.feeds

end

/-- **The registries after any events.** -/
theorem pageRun_registries (es : List PageEvent) :
    Consistent (actsOf es) (pageRun es) ∧ (pageRun es).kinds = registered (actsOf es) := by
  refine run_history (P := fun es app =>
    Consistent (actsOf es) app ∧ app.kinds = registered (actsOf es)) ⟨Consistent.initial, rfl⟩ ?_ es
  rintro es e app ⟨h, h_kinds⟩
  cases e with
  | act act =>
    rw [actsOf_act]
    refine ⟨h.step act, (h.kinds_step act).trans ?_⟩
    rw [h_kinds]
    exact (gatherAlong_concat _ _ _).symm
  | call k snapshot =>
    rw [actsOf_call]
    exact ⟨h.call k snapshot, (WebApp.kinds_call k snapshot app).trans h_kinds⟩

/-! ### Calls and exceptions -/

/-- A component that is told something is told it by a call. -/
theorem length_tellAll (observers : List Component) (notifications : List ChangeDetails)
    (screen : Screen) : (notifications.foldl (Screen.tellAll observers) screen).updates.length
      = screen.updates.length + notifications.length * observers.length := by
  have h_one (changeDetails : ChangeDetails) (screen : Screen) :
      (screen.tellAll observers changeDetails).updates.length
        = screen.updates.length + observers.length := by
    unfold Screen.tellAll
    induction observers generalizing screen with
    | nil => rfl
    | cons o observers ih =>
      rw [List.foldl_cons, ih]
      show (screen.updates ++ [_]).length + _ = _
      rw [List.length_append, List.length_cons]
      exact Nat.add_right_comm ..
  induction notifications generalizing screen with
  | nil => simp
  | cons changeDetails notifications ih =>
    rw [List.foldl_cons, ih, h_one, List.length_cons, Nat.succ_mul]
    omega

/-- With `Case1` as the observer, each callback that has something to tell throws. -/
theorem raiseValue_case1 {this : Component} (h_page : this.page = .case1) (snapshot : Snapshot)
    (listeners : List Listener) (screen : Screen) :
    (raiseValue [this] snapshot listeners screen).screen = screen ∧
      (raiseValue [this] snapshot listeners screen).uncaught.length
        = listeners.countP fun l => decide (l.notifications snapshot ≠ []) := by
  induction listeners with
  | nil => exact ⟨rfl, rfl⟩
  | cons listener listeners ih =>
    unfold raiseValue
    by_cases h_quiet : listener.notifications snapshot = []
    · rw [Listener.call_quiet h_quiet, List.countP_cons_of_neg (by simp [h_quiet])]
      exact ih
    · -- it ends at its first entry, and the others are called all the same
      rw [(Listener.call_error h_quiet h_page [] screen).1,
        List.countP_cons_of_pos (by simp [h_quiet])]
      exact ⟨ih.1, congrArg (· + 1) ih.2⟩

/-- The callbacks that have something to tell are the feeds, if there are entries. -/
theorem WebApp.countP_notifications (app : WebApp) (snapshot : Snapshot) :
    (app.listeners.countP fun l => decide (l.notifications snapshot ≠ []))
      = if snapshot ≠ [] then app.feeds.length else 0 := by
  unfold WebApp.feeds
  induction app.listeners with
  | nil => simp
  | cons listener listeners ih =>
    cases listener with
    | latestEntry entry =>
      rw [List.countP_cons_of_neg (by simp [Listener.notifications]), ih]
      rfl
    | latestValues numOfVal pType data =>
      rw [List.countP_cons_of_neg (by simp [Listener.notifications]), ih]
      rfl
    | updatesFor pType =>
      by_cases h_some : snapshot = []
      · rw [List.countP_cons_of_neg (by simp [Listener.notifications, h_some]), ih]
        simp [h_some]
      · rw [List.countP_cons_of_pos (by simp [Listener.notifications, h_some]), ih, if_pos h_some,
          if_pos h_some]
        rfl

/-- What a single callback has to tell. -/
theorem Listener.length_notifications (listener : Listener) (snapshot : Snapshot) :
    (listener.notifications snapshot).length
      = if listener.feed.isSome then snapshot.length else 0 := by
  cases listener with
  | latestEntry entry => rfl
  | updatesFor pType => exact List.length_map _
  | latestValues numOfVal pType data => rfl

section

variable {acts : List Act} {app : WebApp}

/-- On a page without a component nobody is there to be told, and on `Case2` one. -/
theorem Consistent.length_observers (h : Consistent acts app) (h_case1 : routeAfter acts ≠ .case1) :
    app.observers.length = if routeAfter acts = .case2 then 1 else 0 := by
  by_cases h_case2 : routeAfter acts = .case2
  · obtain ⟨this, -, -, h_observers⟩ := h.on_page (Route.page_eq_case2.mpr h_case2)
    rw [h_observers, if_pos h_case2]
    rfl
  · have h_none : app.mounted = none := by
      have h_page := h.page
      cases h_route : routeAfter acts with
      | welcome | case3 =>
        rw [h_route] at h_page
        exact Option.map_eq_none_iff.mp h_page
      | case1 => exact absurd h_route h_case1
      | case2 => exact absurd h_route h_case2
    rw [h.observers, h_none, if_neg h_case2]
    rfl

/-- What one value event costs. -/
theorem Consistent.value_costs (h : Consistent acts app) (snapshot : Snapshot) :
    (app.value snapshot).screen.updates.length = app.screen.updates.length
        + (if routeAfter acts = .case2 then case2Mounts acts * snapshot.length else 0) ∧
      (app.value snapshot).uncaught.length = app.uncaught.length
        + if routeAfter acts = .case1 ∧ snapshot ≠ [] then case2Mounts acts else 0 := by
  have h_feeds : app.feeds.length = case2Mounts acts := by rw [h.feeds, List.length_replicate]
  by_cases h_case1 : routeAfter acts = .case1
  · obtain ⟨this, -, h_page, h_observers⟩ := h.on_page (Route.page_eq_case1.mpr h_case1)
    obtain ⟨h_screen, h_uncaught⟩ := raiseValue_case1 h_page snapshot app.listeners app.screen
    rw [← h_observers] at h_screen h_uncaught
    rw [app.countP_notifications, h_feeds] at h_uncaught
    constructor
    · show (raiseValue _ _ _ _).screen.updates.length = _
      rw [h_screen]
      simp [h_case1]
    · show (app.uncaught ++ (raiseValue _ _ _ _).uncaught).length = _
      rw [List.length_append, h_uncaught]
      simp [h_case1]
  · obtain ⟨h_screen, h_uncaught⟩ := WebApp.value_ok (h.off_case1 h_case1) snapshot
    -- every feed tells every entry
    have h_length : (app.notifications snapshot).length = case2Mounts acts * snapshot.length := by
      rw [WebApp.notifications_eq, h.feeds]
      simp [List.length_flatMap]
    rw [h_screen, h_uncaught, length_tellAll, h_length, h.length_observers h_case1]
    refine ⟨congrArg _ ?_, by simp [h_case1]⟩
    split
    · exact Nat.mul_one _
    · exact Nat.mul_zero _

/-- What one single call costs. -/
theorem Consistent.call_costs (h : Consistent acts app) (h_kinds : app.kinds = registered acts)
    (k : ℕ) (snapshot : Snapshot) :
    (app.call k snapshot).screen.updates.length = app.screen.updates.length
        + (if routeAfter acts = .case2 ∧ notifies acts k then snapshot.length else 0) ∧
      (app.call k snapshot).uncaught.length = app.uncaught.length
        + if routeAfter acts = .case1 ∧ snapshot ≠ [] ∧ notifies acts k then 1 else 0 := by
  have h_notifies : notifies acts k = (app.listeners[k]?.map Listener.feed).join.isSome := by
    unfold notifies
    rw [← h_kinds, WebApp.kinds, List.getElem?_map]
  cases h_k : app.listeners[k]? with
  | none =>
    -- there is no such callback
    have h_not : notifies acts k = false := by rw [h_notifies, h_k]; rfl
    rw [WebApp.call_of_none h_k]
    simp [h_not]
  | some listener =>
    have h_feed : notifies acts k = listener.feed.isSome := by rw [h_notifies, h_k]; rfl
    have h_length := listener.length_notifications snapshot
    rw [← h_feed] at h_length
    by_cases h_case1 : routeAfter acts = .case1
    · obtain ⟨this, -, h_page, h_observers⟩ := h.on_page (Route.page_eq_case1.mpr h_case1)
      by_cases h_quiet : listener.notifications snapshot = []
      · -- it has nothing to tell, or nothing to tell of
        have h_none : ¬ (snapshot ≠ [] ∧ notifies acts k = true) := by
          rintro ⟨h_some, h_yes⟩
          rw [h_quiet, if_pos h_yes] at h_length
          exact h_some (List.length_eq_zero_iff.mp h_length.symm)
        rw [WebApp.call_of_ok h_k (Listener.call_quiet h_quiet _ _),
          if_neg fun h_and : routeAfter acts = .case1 ∧ _ => h_none h_and.2]
        simp [h_case1]
      · have h_some : snapshot ≠ [] ∧ notifies acts k = true := by
          rw [← List.length_eq_zero_iff, h_length] at h_quiet
          simpa [and_comm] using h_quiet
        have h_error := (Listener.call_error h_quiet h_page [] app.screen).1
        rw [← h_observers] at h_error
        rw [WebApp.call_of_error h_k h_error]
        simp [h_case1, h_some]
    · have h_ok := Listener.call_ok (h.off_case1 h_case1) snapshot listener app.screen
      rw [WebApp.call_of_ok h_k h_ok]
      refine ⟨?_, by simp [h_case1]⟩
      show ((listener.notifications snapshot).foldl _ app.screen).updates.length = _
      rw [length_tellAll, h_length, h.length_observers h_case1, ite_and]
      by_cases h_case2 : routeAfter acts = .case2
      · rw [if_pos h_case2, if_pos h_case2, Nat.mul_one]
      · rw [if_neg h_case2, if_neg h_case2, Nat.mul_zero]

end

/-- Visits and renders call nothing. -/
theorem WebApp.visit_costs (app : WebApp) (route : Route) :
    (app.visit route).screen.updates = app.screen.updates ∧
      (app.visit route).uncaught = app.uncaught := by
  unfold WebApp.visit
  split
  · exact ⟨rfl, rfl⟩
  · cases app.mounted <;> cases route <;> exact ⟨rfl, rfl⟩

theorem WebApp.rerender_costs (app : WebApp) :
    app.rerender.screen.updates = app.screen.updates ∧ app.rerender.uncaught = app.uncaught := by
  unfold WebApp.rerender
  cases app.mounted with
  | none => exact ⟨rfl, rfl⟩
  | some this =>
    show (app.render this).screen.updates = _ ∧ (app.render this).uncaught = _
    unfold WebApp.render
    cases this.page <;> exact ⟨rfl, rfl⟩

/-- **What the callbacks cost.** In every run of visits, renders, value events and single calls, the
callbacks registered are one for each time that `Case2` was mounted, three for each time that
`Case1` was and one for each time that it was rendered again. `update()` was called once for every
entry of every value event on `Case2` and every visit to `Case2` so far, and once for every entry of
every single call of a callback of `getUpdatesFor` on `Case2`. On `Case1`, every value event with
entries threw as many exceptions as there were such visits, and every such single call with entries
one. -/
theorem pageRun_costs (es : List PageEvent) :
    (pageRun es).listeners.length
        = case2Mounts (actsOf es) + 3 * case1Mounts (actsOf es) + case1Rerenders (actsOf es) ∧
      (pageRun es).kinds = registered (actsOf es) ∧
      (pageRun es).screen.updates.length = sumAlong updatesAt es ∧
      (pageRun es).uncaught.length = sumAlong exceptionsAt es := by
  refine ⟨?_, (pageRun_registries es).2, ?_⟩
  · rw [← length_registered, ← (pageRun_registries es).2]
    exact (List.length_map _).symm
  induction es using List.reverseRecOn with
  | nil => exact ⟨rfl, rfl⟩
  | append_singleton es e ih =>
    obtain ⟨h, h_kinds⟩ := pageRun_registries es
    have h_next : pageRun (es ++ [e]) = (pageRun es).happen e := run_concat es e
    rw [h_next, sumAlong_concat, sumAlong_concat, ← ih.1, ← ih.2]
    cases e with
    | call k snapshot => exact h.call_costs h_kinds k snapshot
    | act act =>
      cases act with
      | visit route =>
        obtain ⟨h_updates, h_uncaught⟩ := (pageRun es).visit_costs route
        exact ⟨congrArg List.length h_updates, congrArg List.length h_uncaught⟩
      | rerender =>
        obtain ⟨h_updates, h_uncaught⟩ := (pageRun es).rerender_costs
        exact ⟨congrArg List.length h_updates, congrArg List.length h_uncaught⟩
      | value snapshot => exact h.value_costs snapshot

end AirQuality.Web
