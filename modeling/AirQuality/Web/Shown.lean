import AirQuality.Web.Visits

/-!
# Where the shown values come from

Whatever a `Case2` component shows came out of an entry of the database: the callbacks pass on what
they find in a snapshot and nothing else, `update` keeps what it is passed, and a new component
shows nothing. So what is true of all entries of all snapshots is true of every value shown. As an
invariant of the application that is `Shown`, and every visit, every rendering and every value event
keeps it, no matter how often the pages are visited, how many callbacks are live and which of them
are ended by an exception.
-/

namespace AirQuality.Web

open Effect

/-- Every component that shows a value shows that of an entry in `S`; `feeds` says that all live
callbacks of `getUpdatesFor` are for this value. -/
structure Shown (S : Entry → Prop) (app : WebApp) : Prop where
  feeds : ∀ pType ∈ app.feeds, pType = "PM0_3"
  states : ∀ id, (app.screen.states id).status = .updated →
    ∃ entry, S entry ∧ (app.screen.states id).currentVal = entry.get "PM0_3"

/-- The part that is about the screen. -/
def ScreenShown (S : Entry → Prop) (screen : Screen) : Prop :=
  ∀ id, (screen.states id).status = .updated →
    ∃ entry, S entry ∧ (screen.states id).currentVal = entry.get "PM0_3"

section

variable {S : Entry → Prop}

theorem Shown.mono {S' : Entry → Prop} {app : WebApp} (h : Shown S app)
    (h_sub : ∀ entry, S entry → S' entry) : Shown S' app where
  feeds := h.feeds
  states := by
    intro id h_status
    obtain ⟨entry, h_entry, h_value⟩ := h.states id h_status
    exact ⟨entry, h_sub entry h_entry, h_value⟩

/-! ### A value event -/

/-- A component keeps what it shows, or shows what it is passed. -/
theorem Case2State.update_cases (state : Case2State) (changeDetails : ChangeDetails) :
    state.update changeDetails = state ∨
      state.update changeDetails = .updatedTo changeDetails.value := by
  unfold Case2State.update
  split
  · split
    · exact Or.inr rfl
    · exact Or.inl rfl
  · exact Or.inl rfl

/-- One call of `update()`, whether the component has it or not. -/
theorem ScreenShown.update {screen : Screen} (h : ScreenShown S screen) {entry : Entry}
    (h_entry : S entry) (observer : Component) :
    ScreenShown S (stateAfter (observer.update (newVal "PM0_3" entry) screen)) := by
  cases h_page : observer.page with
  | case1 =>
    rw [Component.update_case1 h_page]
    exact h
  | case2 =>
    rw [Component.update_case2 h_page]
    intro id
    show (Function.update screen.states observer.id _ id).status = .updated → _
    by_cases h_id : id = observer.id
    · subst h_id
      change _ → ∃ e, S e ∧ (Function.update screen.states observer.id _ observer.id).currentVal = _
      rw [Function.update_self]
      rcases (screen.states observer.id).update_cases (newVal "PM0_3" entry) with h_same | h_new
      · rw [h_same]
        exact h observer.id
      · rw [h_new]
        exact fun _ => ⟨entry, h_entry, rfl⟩
    · change _ → ∃ e, S e ∧ (Function.update screen.states observer.id _ id).currentVal = _
      rw [Function.update_of_ne h_id]
      exact h id

/-- One callback, whether it is ended by an exception or not. -/
theorem ScreenShown.call {screen : Screen} (h : ScreenShown S screen) {snapshot : Snapshot}
    (h_snapshot : ∀ entry ∈ snapshot, S entry) (observers : List Component) {listener : Listener}
    (h_feed : ∀ pType, listener.feed = some pType → pType = "PM0_3") :
    ScreenShown S (stateAfter (listener.call observers snapshot screen)) := by
  cases listener with
  -- these write variables only
  | latestEntry entry => exact h
  | latestValues numOfVal pType data => exact h
  | updatesFor pType =>
    obtain rfl := h_feed pType rfl
    -- over the entries, and over the observers for each of them
    have h_loop : ScreenShown S (stateAfter
        (snapshot.forM (fun snap => notifyObservers observers (newVal "PM0_3" snap)) screen)) := by
      refine forM_invariant (fun snap h_mem s h_s => ?_) h
      refine forM_invariant (fun observer _ t h_t => ?_) h_s
      exact h_t.update (h_snapshot snap h_mem) observer
    rw [Listener.call_updatesFor]
    simp only [bind, EStateM.bind]
    generalize snapshot.forM (fun snap => notifyObservers observers (newVal "PM0_3" snap)) screen
      = out at h_loop ⊢
    cases out <;> exact h_loop

theorem ScreenShown.raiseValue {screen : Screen} (h : ScreenShown S screen) {snapshot : Snapshot}
    (h_snapshot : ∀ entry ∈ snapshot, S entry) (observers : List Component)
    {listeners : List Listener}
    (h_feeds : ∀ pType ∈ listeners.filterMap Listener.feed, pType = "PM0_3") :
    ScreenShown S (raiseValue observers snapshot listeners screen).screen := by
  induction listeners generalizing screen with
  | nil => exact h
  | cons listener listeners ih =>
    have h_feed : ∀ pType, listener.feed = some pType → pType = "PM0_3" := fun pType h_some =>
      h_feeds pType (List.mem_filterMap.mpr ⟨listener, List.mem_cons_self, h_some⟩)
    have h_rest : ∀ pType ∈ listeners.filterMap Listener.feed, pType = "PM0_3" := by
      intro pType h_mem
      obtain ⟨l, hl, h_some⟩ := List.mem_filterMap.mp h_mem
      exact h_feeds pType (List.mem_filterMap.mpr ⟨l, List.mem_cons_of_mem _ hl, h_some⟩)
    have h_call := h.call h_snapshot observers h_feed
    unfold AirQuality.Web.raiseValue
    split
    · next h_eq =>
      rw [h_eq] at h_call
      exact ih h_call h_rest
    · next h_eq =>
      rw [h_eq] at h_call
      exact ih h_call h_rest

/-! ### Visits -/

/-- A new component shows nothing, and its page registers a callback for `PM0_3` at most. -/
theorem Shown.mount {app : WebApp} (h : Shown S app) (page : Page) : Shown S (app.mount page) where
  feeds := by
    intro pType h_mem
    rw [(WebApp.mount_registry page app).2.2, List.mem_append] at h_mem
    rcases h_mem with h_mem | h_mem
    · exact h.feeds pType h_mem
    · cases page with
      | case1 => cases h_mem
      | case2 => exact List.mem_singleton.mp h_mem
  states := by
    have h_screen : (app.mount page).screen.states
        = Function.update app.screen.states app.created .initial := by
      cases page <;> rfl
    rw [h_screen]
    intro id
    by_cases h_id : id = app.created
    · -- the new component is still loading
      subst h_id
      rw [Function.update_self]
      exact fun h_status => Status.noConfusion h_status
    · rw [Function.update_of_ne h_id]
      exact h.states id

theorem Shown.visit {app : WebApp} (h : Shown S app) (route : Route) :
    Shown S (app.visit route) := by
  have h_unmounted : Shown S (app.mounted.elim app fun this => app.unmount this) := by
    cases app.mounted with
    | none => exact h
    | some this => exact ⟨h.feeds, h.states⟩
  unfold WebApp.visit
  split
  · exact h
  · cases route.page with
    | none => exact h_unmounted
    | some page => exact h_unmounted.mount page

theorem Shown.rerender {app : WebApp} (h : Shown S app) : Shown S app.rerender := by
  unfold WebApp.rerender
  cases app.mounted with
  | none => exact h
  | some this =>
    have h_screen : (app.render this).screen = app.screen := by
      unfold WebApp.render
      cases this.page <;> rfl
    constructor
    · show ∀ pType ∈ (app.render this).feeds, _
      rw [(WebApp.render_registry this app).2.2]
      exact h.feeds
    · show ScreenShown S (app.render this).screen
      rw [h_screen]
      exact h.states

theorem Shown.value {app : WebApp} (h : Shown S app) {snapshot : Snapshot}
    (h_snapshot : ∀ entry ∈ snapshot, S entry) : Shown S (app.value snapshot) where
  feeds := by
    rw [WebApp.feeds_value]
    exact h.feeds
  states := ScreenShown.raiseValue h.states h_snapshot app.observers h.feeds

end

/-! ### Before the first visit, and the light -/

/-- Before a page is visited nothing is shown. -/
theorem shown_initial (S : Entry → Prop) : Shown S .initial where
  feeds := fun _ h => absurd h List.not_mem_nil
  states := fun _ h => Status.noConfusion h

/-- The light is red only if the component shows a value that is not below the threshold. -/
theorem Case2State.red_iff (state : Case2State) : state.lightBtn = some .red ↔
    state.status = .updated ∧ state.currentVal.lessThan 1000 = false := by
  unfold Case2State.lightBtn
  cases state.status with
  | loading => simp
  | updated => cases state.currentVal.lessThan 1000 <;> simp

end AirQuality.Web
