import AirQuality.Web.App

/-!
# What the registries hold

After any visits the observers are the mounted component, and the callbacks of `getUpdatesFor` are
as many as the times that `Case2` was mounted (`consistent_visited`). Both would be one if a page
released what it registers; since the callbacks stay, a second visit to `Case2` is notified of each
entry twice (`case2_single_iff`), and after a visit to `Case2` the callbacks reach for the `update`
of `Case1`, which has none (`events_delivered_iff`).
-/

namespace AirQuality.Web

open Machine

/-! ### The registries along a run -/

/-- The parameter whose updates a callback notifies. -/
def Listener.feed : Listener → Option String
  | .updatesFor pType => some pType
  | _ => none

/-- The live callbacks of `getUpdatesFor`, by their parameters. -/
def WebApp.feeds (app : WebApp) : List String := app.listeners.filterMap Listener.feed

/-- What a value event has to tell every observer. -/
def WebApp.notifications (snapshot : Snapshot) (app : WebApp) : List ChangeDetails :=
  app.listeners.flatMap (·.notifications snapshot)

/-- The notifications are those of the feeds. -/
theorem WebApp.notifications_eq (snapshot : Snapshot) (app : WebApp) :
    app.notifications snapshot = app.feeds.flatMap fun pType => snapshot.map (newVal pType) := by
  unfold WebApp.notifications WebApp.feeds
  induction app.listeners with
  | nil => rfl
  | cons listener listeners ih =>
    rw [List.flatMap_cons, ih]
    cases listener with
    | latestEntry entry => rfl
    | updatesFor pType => rfl
    | latestValues numOfVal pType data => rfl

@[simp] theorem Listener.feed_after (listener : Listener) (snapshot : Snapshot) :
    (listener.after snapshot).feed = listener.feed := by
  cases listener <;> rfl

@[simp] theorem WebApp.feeds_on (callback : Listener) (app : WebApp) :
    (app.on callback).feeds = app.feeds ++ callback.feed.toList := by
  unfold WebApp.feeds WebApp.on
  rw [List.filterMap_append]
  cases callback <;> rfl

theorem WebApp.feeds_getLatestValues (numOfVal : ℕ) (pType : String) (app : WebApp) :
    (app.getLatestValues numOfVal pType).2.feeds = app.feeds :=
  (WebApp.feeds_on _ _).trans (List.append_nil _)

@[simp] theorem WebApp.feeds_value (snapshot : Snapshot) (app : WebApp) :
    (app.value snapshot).feeds = app.feeds := by
  unfold WebApp.feeds
  rw [WebApp.value_listeners, List.filterMap_map]
  congr 1
  funext listener
  exact Listener.feed_after listener snapshot

/-- The callback of `getUpdatesFor` that a page registers. -/
def Page.feeds : Page → List String
  | .case1 => []
  | .case2 => ["PM0_3"]

/-- Rendering registers no callback of `getUpdatesFor`, and no observer. -/
theorem WebApp.render_registry (this : Component) (app : WebApp) :
    (app.render this).mounted = app.mounted ∧ (app.render this).observers = app.observers ∧
      (app.render this).feeds = app.feeds := by
  unfold WebApp.render
  cases this.page with
  | case1 => exact ⟨rfl, rfl, (WebApp.feeds_on _ _).trans (List.append_nil _)⟩
  | case2 => exact ⟨rfl, rfl, rfl⟩

theorem WebApp.componentDidMount_registry (this : Component) (app : WebApp) :
    (app.componentDidMount this).mounted = app.mounted ∧
      (app.componentDidMount this).observers = app.observers ++ [this] ∧
      (app.componentDidMount this).feeds = app.feeds ++ this.page.feeds := by
  unfold WebApp.componentDidMount
  cases this.page with
  | case1 =>
    refine ⟨rfl, rfl, ?_⟩
    calc (((app.addObserver this).getLatestValues 12 "PM2_5").2.getLatestValues 12 "PM10").2.feeds
        = ((app.addObserver this).getLatestValues 12 "PM2_5").2.feeds :=
          WebApp.feeds_getLatestValues _ _ _
      _ = (app.addObserver this).feeds := WebApp.feeds_getLatestValues _ _ _
      _ = app.feeds ++ [] := (List.append_nil _).symm
  | case2 => exact ⟨rfl, rfl, WebApp.feeds_on _ _⟩

/-- **What mounting registers.** -/
theorem WebApp.mount_registry (page : Page) (app : WebApp) :
    (app.mount page).mounted = some ⟨app.created, page⟩ ∧
      (app.mount page).observers = app.observers ++ [⟨app.created, page⟩] ∧
      (app.mount page).feeds = app.feeds ++ page.feeds := by
  let this : Component := ⟨app.created, page⟩
  obtain ⟨h_mounted, h_observers, h_feeds⟩ :=
    WebApp.render_registry this (app.construct this)
  obtain ⟨h_mounted', h_observers', h_feeds'⟩ :=
    WebApp.componentDidMount_registry this ((app.construct this).render this)
  refine ⟨h_mounted'.trans h_mounted, ?_, ?_⟩
  · exact h_observers'.trans (congrArg (· ++ [this]) h_observers)
  · exact h_feeds'.trans (congrArg (· ++ page.feeds) h_feeds)

/-- **The registries after `acts`.** -/
structure Consistent (acts : List Act) (app : WebApp) : Prop where
  page : app.mounted.map Component.page = (routeAfter acts).page
  observers : app.observers = app.mounted.toList
  feeds : app.feeds = List.replicate (case2Mounts acts) "PM0_3"

theorem Route.page_eq_case2 {route : Route} : route.page = some .case2 ↔ route = .case2 := by
  cases route <;> decide

theorem Route.page_eq_case1 {route : Route} : route.page = some .case1 ↔ route = .case1 := by
  cases route <;> decide

theorem Consistent.initial : Consistent [] .initial where
  page := rfl
  observers := rfl
  feeds := rfl

/-- An act that does not change the page keeps the registries' state if it keeps the registries. -/
theorem Consistent.stay {acts : List Act} {act : Act} {app app' : WebApp} (h : Consistent acts app)
    (h_page : (routeAfter (acts ++ [act])).page = (routeAfter acts).page)
    (h_mounted : app'.mounted = app.mounted) (h_observers : app'.observers = app.observers)
    (h_feeds : app'.feeds = app.feeds) : Consistent (acts ++ [act]) app' where
  page := by rw [h_mounted, h.page, h_page]
  observers := by rw [h_observers, h_mounted, h.observers]
  feeds := by
    have h_case2 : routeAfter (acts ++ [act]) = .case2 ↔ routeAfter acts = .case2 := by
      rw [← Route.page_eq_case2, h_page, Route.page_eq_case2]
    have h_rises : rises onCase2 acts act = false := by
      unfold rises onCase2
      rw [decide_eq_decide.mpr h_case2, Bool.not_and_self]
    rw [h_feeds, h.feeds, case2Mounts_concat, h_rises, Bool.toNat_false, Nat.add_zero]

/-- The old component is gone before the new one is mounted. -/
theorem Consistent.unmounted {acts : List Act} {app : WebApp} (h : Consistent acts app) :
    (app.mounted.elim app fun this => app.unmount this).mounted = none ∧
      (app.mounted.elim app fun this => app.unmount this).observers = [] ∧
      (app.mounted.elim app fun this => app.unmount this).feeds = app.feeds := by
  have h_observers := h.observers
  cases h_mounted : app.mounted with
  | none =>
    -- there is nothing to unmount
    rw [h_mounted] at h_observers
    exact ⟨h_mounted, h_observers, rfl⟩
  | some this =>
    rw [h_mounted] at h_observers
    refine ⟨rfl, ?_, rfl⟩
    show app.observers.filter (fun o => o ≠ this) = []
    rw [h_observers]
    simp

/-- What is mounted on an application without a component is all there is. -/
theorem WebApp.mount_bare {app : WebApp} (h_mounted : app.mounted = none)
    (h_observers : app.observers = []) (page : Option Page) :
    (page.elim app app.mount).mounted.map Component.page = page ∧
      (page.elim app app.mount).observers = (page.elim app app.mount).mounted.toList ∧
      (page.elim app app.mount).feeds = app.feeds ++ page.elim [] Page.feeds := by
  cases page with
  | none =>
    refine ⟨?_, ?_, (List.append_nil _).symm⟩
    · exact congrArg (Option.map Component.page) h_mounted
    · exact h_observers.trans (congrArg Option.toList h_mounted).symm
  | some page =>
    obtain ⟨h_this, h_all, h_feeds⟩ := WebApp.mount_registry page app
    rw [h_observers] at h_all
    refine ⟨?_, ?_, h_feeds⟩
    · exact congrArg (Option.map Component.page) h_this
    · exact h_all.trans (congrArg Option.toList h_this).symm

/-- Going to another page registers what that page mounts. -/
theorem Consistent.go {acts : List Act} {route : Route} {app : WebApp} (h : Consistent acts app)
    (h_page : app.mounted.map Component.page ≠ route.page) :
    Consistent (acts ++ [.visit route]) (app.visit route) := by
  obtain ⟨h_mounted, h_observers, h_feeds⟩ := h.unmounted
  obtain ⟨h_now, h_all, h_more⟩ := WebApp.mount_bare h_mounted h_observers route.page
  have h_route : routeAfter (acts ++ [.visit route]) = route := routeAfter_concat _ _
  unfold WebApp.visit
  rw [if_neg h_page]
  refine ⟨by rw [h_route]; exact h_now, h_all, h_more.trans ?_⟩
  rw [h.page] at h_page
  rw [h_feeds, h.feeds, case2Mounts_concat]
  unfold rises onCase2
  rw [h_route]
  -- the new page adds a callback if it is `Case2`, and the count goes up then
  cases route with
  | case2 =>
    have h_from : routeAfter acts ≠ .case2 := fun h => h_page (by rw [h])
    rw [decide_eq_false h_from]
    exact List.replicate_succ'.symm
  | welcome | case1 | case3 => simp [Route.page, Page.feeds]

/-- **What an act does to the registries.** -/
theorem Consistent.step {acts : List Act} {app : WebApp} (h : Consistent acts app) (act : Act) :
    Consistent (acts ++ [act]) (app.step act) := by
  cases act with
  | visit route =>
    by_cases h_page : app.mounted.map Component.page = route.page
    · -- the page is shown already, so the component stays
      show Consistent _ (app.visit route)
      unfold WebApp.visit
      rw [if_pos h_page]
      have h_same : (routeAfter (acts ++ [.visit route])).page = (routeAfter acts).page := by
        rw [routeAfter_concat, ← h.page, h_page]
        rfl
      exact h.stay h_same rfl rfl rfl
    · exact h.go h_page
  | rerender =>
    have h_same : (routeAfter (acts ++ [.rerender])).page = (routeAfter acts).page := by
      rw [routeAfter_concat]
      rfl
    show Consistent _ (app.mounted.elim app fun this => app.render this)
    cases h_mounted : app.mounted with
    | none => exact h.stay h_same rfl rfl rfl
    | some this =>
      obtain ⟨h₁, h₂, h₃⟩ := WebApp.render_registry this app
      exact h.stay h_same h₁ h₂ h₃
  | value snapshot =>
    have h_same : (routeAfter (acts ++ [.value snapshot])).page = (routeAfter acts).page := by
      rw [routeAfter_concat]
      rfl
    exact h.stay h_same (WebApp.value_mounted snapshot app) (WebApp.value_observers snapshot app)
      (WebApp.feeds_value snapshot app)

/-- **The observers are the mounted component, and no callback is ever released.** -/
theorem consistent_visited (acts : List Act) : Consistent acts (visited acts) :=
  run_history Consistent.initial (fun _ act _ h => h.step act) acts

/-- On a page with a component, that component is mounted and is the only observer. -/
theorem Consistent.on_page {acts : List Act} {app : WebApp} (h : Consistent acts app) {page : Page}
    (h_route : (routeAfter acts).page = some page) :
    ∃ this, app.mounted = some this ∧ this.page = page ∧ app.observers = [this] := by
  obtain ⟨this, h_this, h_page⟩ := Option.map_eq_some_iff.mp (h.page.trans h_route)
  refine ⟨this, h_this, h_page, ?_⟩
  rw [h.observers, h_this]
  rfl

/-- Away from `Case1` every observer has `update`. -/
theorem Consistent.off_case1 {acts : List Act} {app : WebApp} (h : Consistent acts app)
    (h_route : routeAfter acts ≠ .case1) : ∀ o ∈ app.observers, o.page = .case2 := by
  intro o ho
  rw [h.observers, Option.mem_toList] at ho
  have h_page := h.page
  rw [ho, Option.map_some] at h_page
  cases h_o : o.page with
  | case1 => exact absurd (Route.page_eq_case1.mp (h_page.symm.trans (congrArg some h_o))) h_route
  | case2 => rfl

/-! ### What a mounted component is told -/

theorem Screen.received_tell (screen : Screen) (observer : Component)
    (changeDetails : ChangeDetails) :
    (screen.tell observer changeDetails).received observer =
      screen.received observer ++ [changeDetails] := by
  unfold Screen.received Screen.tell
  simp

theorem Screen.received_tellAll (screen : Screen) (observer : Component)
    (notifications : List ChangeDetails) :
    (notifications.foldl (Screen.tellAll [observer]) screen).received observer =
      screen.received observer ++ notifications := by
  induction notifications generalizing screen with
  | nil => exact (List.append_nil _).symm
  | cons changeDetails notifications ih =>
    rw [List.foldl_cons, ih]
    show (screen.tell observer changeDetails).received observer ++ notifications = _
    rw [Screen.received_tell, List.append_assoc]
    rfl

/-- A value event while all observers have the method. -/
theorem WebApp.value_ok {app : WebApp} (h : ∀ o ∈ app.observers, o.page = .case2)
    (snapshot : Snapshot) :
    (app.value snapshot).screen =
        (app.notifications snapshot).foldl (Screen.tellAll app.observers) app.screen ∧
      (app.value snapshot).uncaught = app.uncaught := by
  have h_raise : (raiseValue app.observers snapshot app.listeners app.screen).screen = _ ∧
      (raiseValue app.observers snapshot app.listeners app.screen).uncaught = [] :=
    raiseValue_ok h app.screen
  refine ⟨h_raise.1, ?_⟩
  show app.uncaught ++ _ = _
  rw [h_raise.2, List.append_nil]

/-- A value event while one `Case2` component is the only observer. -/
theorem WebApp.value_case2 {app : WebApp} {this : Component} (h_observers : app.observers = [this])
    (h_page : this.page = .case2) (snapshot : Snapshot) :
    (app.value snapshot).screen =
        (app.notifications snapshot).foldl (Screen.tellAll [this]) app.screen ∧
      (app.value snapshot).uncaught = app.uncaught := by
  have h_all : ∀ o ∈ app.observers, o.page = .case2 := by
    rw [h_observers]
    intro o ho
    rw [List.mem_singleton.mp ho, h_page]
  rw [← h_observers]
  exact WebApp.value_ok h_all snapshot

/-- A value event with notifications while a `Case1` component is the only observer. -/
theorem WebApp.value_case1 {app : WebApp} {this : Component} (h_observers : app.observers = [this])
    (h_page : this.page = .case1) {snapshot : Snapshot} (h_some : app.notifications snapshot ≠ []) :
    (app.value snapshot).uncaught ≠ app.uncaught := by
  intro h
  have h_raise := raiseValue_error h_some h_page [] app.screen
  rw [← h_observers] at h_raise
  exact h_raise (List.self_eq_append_right.mp h.symm)

/-- One callback of `getUpdatesFor` for a mounted `Case2` and none otherwise, so that a mounted
`Case2` is told every entry of a snapshot once, in order. -/
structure SingleFeed (app : WebApp) : Prop where
  live : app.feeds.length = (decide (app.mounted.map Component.page = some .case2)).toNat
  once : ∀ this, app.mounted = some this → this.page = .case2 → ∀ snapshot : Snapshot,
    (app.value snapshot).screen.received this =
      app.screen.received this ++ snapshot.map (newVal "PM0_3")

/-- The callbacks are as many as the times that `Case2` was left, and one more if it is mounted. -/
theorem length_feeds (acts : List Act) :
    (visited acts).feeds.length = countAlong (falls onCase2) acts +
      (decide ((visited acts).mounted.map Component.page = some .case2)).toNat := by
  have h := consistent_visited acts
  calc (visited acts).feeds.length
      = case2Mounts acts := by rw [h.feeds, List.length_replicate]
    _ = countAlong (falls onCase2) acts + (onCase2 acts).toNat := case2Mounts_eq acts
    _ = countAlong (falls onCase2) acts +
          (decide ((visited acts).mounted.map Component.page = some .case2)).toNat := by
        rw [h.page, onCase2, decide_eq_decide.mpr Route.page_eq_case2]

theorem singleFeed_iff (acts : List Act) :
    SingleFeed (visited acts) ↔ countAlong (falls onCase2) acts = 0 := by
  have h := consistent_visited acts
  have h_length := length_feeds acts
  constructor
  -- a callback for each `Case2` that was left, besides that of a mounted one
  · intro h_single
    rw [h_single.live] at h_length
    omega
  · intro h_never
    rw [h_never, Nat.zero_add] at h_length
    refine ⟨h_length, fun this h_this h_page snapshot => ?_⟩
    have h_observers : (visited acts).observers = [this] := by
      rw [h.observers, h_this]
      rfl
    have h_feeds : (visited acts).feeds = ["PM0_3"] := by
      rw [h.feeds, List.length_replicate, h_this, Option.map_some, h_page] at h_length
      rw [h.feeds, h_length]
      rfl
    have h_notifications : (visited acts).notifications snapshot =
        snapshot.map (newVal "PM0_3") := by
      rw [WebApp.notifications_eq, h_feeds, List.flatMap_singleton]
    rw [(WebApp.value_case2 h_observers h_page snapshot).1, Screen.received_tellAll,
      h_notifications]

/-- **One callback per visit.** In a run the callbacks of `getUpdatesFor` match the mounted `Case2`
if and only if the user never leaves `Case2`. -/
theorem case2_single_iff (acts : List Act) :
    (∀ pre, pre <+: acts → SingleFeed (visited pre)) ↔
      Along (fun pre act => falls onCase2 pre act = false) acts := by
  constructor
  · intro h
    exact countAlong_eq_zero.mp ((singleFeed_iff acts).mp (h acts (List.prefix_refl acts)))
  · rintro h pre ⟨post, rfl⟩
    exact (singleFeed_iff pre).mpr (countAlong_eq_zero.mpr h.of_append)

/-- After the second visit to `Case2` there are two callbacks. -/
theorem secondVisit_two_feeds :
    ¬ ∀ pre, pre <+: [.visit .case2, .visit .welcome, .visit .case2] →
      SingleFeed (visited pre) := by
  intro h
  have h_live := (h _ (List.prefix_refl _)).live
  revert h_live
  decide

/-! ### Events that end in an exception -/

/-- Every observer that is called has `update`, no callback throws, and the mounted component is
told all notifications of the event. -/
structure Delivered (app : WebApp) (snapshot : Snapshot) : Prop where
  callable : app.notifications snapshot ≠ [] → ∀ o ∈ app.observers, (updateMethod o.page).isSome
  no_exception : (app.value snapshot).uncaught = app.uncaught
  received : ∀ this, app.mounted = some this →
    (app.value snapshot).screen.received this =
      app.screen.received this ++ app.notifications snapshot

theorem notifications_visited_eq_nil (acts : List Act) (snapshot : Snapshot) :
    (visited acts).notifications snapshot = [] ↔ (.visit .case2 ∈ acts → snapshot = []) := by
  rw [WebApp.notifications_eq, (consistent_visited acts).feeds, ← case2Mounts_pos]
  cases h : case2Mounts acts with
  | zero => simp
  | succ k => simp

/-- Without notifications nobody is called. -/
theorem Delivered.of_quiet {app : WebApp} {snapshot : Snapshot}
    (h : app.notifications snapshot = []) : Delivered app snapshot := by
  obtain ⟨h_screen, h_uncaught⟩ := raiseValue_quiet h app.observers app.screen
  refine ⟨fun h_some => absurd h h_some, ?_, fun this _ => ?_⟩
  · show app.uncaught ++ _ = _
    rw [h_uncaught, List.append_nil]
  · rw [h, List.append_nil]
    exact congrArg (Screen.received · this) h_screen

/-- Observers that have `update` are told everything. -/
theorem Delivered.of_case2 {app : WebApp} (h : ∀ o ∈ app.observers, o.page = .case2)
    (h_mounted : ∀ this, app.mounted = some this → app.observers = [this]) (snapshot : Snapshot) :
    Delivered app snapshot where
  callable := by
    intro _ o ho
    rw [h o ho]
    rfl
  no_exception := (WebApp.value_ok h snapshot).2
  received := by
    intro this h_this
    rw [(WebApp.value_ok h snapshot).1, h_mounted this h_this, Screen.received_tellAll]

theorem delivered_visited_iff (acts : List Act) (snapshot : Snapshot) :
    Delivered (visited acts) snapshot ↔
      (routeAfter acts = .case1 → .visit .case2 ∈ acts → snapshot = []) := by
  have h := consistent_visited acts
  rw [← notifications_visited_eq_nil]
  by_cases h_route : routeAfter acts = .case1
  · -- the observer is a `Case1`, and any notification throws
    obtain ⟨this, -, h_page, h_observers⟩ := h.on_page (Route.page_eq_case1.mpr h_route)
    refine ⟨fun h_delivered _ => ?_, fun h_quiet => .of_quiet (h_quiet h_route)⟩
    by_contra h_some
    exact WebApp.value_case1 h_observers h_page h_some h_delivered.no_exception
  · refine iff_of_true (.of_case2 (h.off_case1 h_route) (fun this h_this => ?_) snapshot)
      (fun h_case1 => absurd h_case1 h_route)
    rw [h.observers, h_this]
    rfl

/-- **Which events end in an exception.** All events of a run are delivered if and only if none
that brings entries finds `Case1` mounted after a visit to `Case2`. -/
theorem events_delivered_iff (acts : List Act) :
    Along (fun pre act => ∀ snapshot, act = .value snapshot → Delivered (visited pre) snapshot)
        acts ↔
      Along (fun pre act => ∀ snapshot, act = .value snapshot →
        routeAfter pre = .case1 → .visit .case2 ∈ pre → snapshot = []) acts := by
  unfold Along
  simp only [delivered_visited_iff]

/-- The callback of the first page runs into the second one. -/
theorem case1_after_case2_throws :
    ¬ Along (fun pre act => ∀ snapshot, act = .value snapshot → Delivered (visited pre) snapshot)
      [.visit .case2, .visit .case1, .value [.ofNumber "PM0_3" 0]] := by
  intro h
  have h_event := h [.visit .case2, .visit .case1] _ [] rfl _ rfl
  have h_none := h_event.no_exception
  revert h_none
  decide

end AirQuality.Web
