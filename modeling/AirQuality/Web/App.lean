import AirQuality.Framework.Machine
import AirQuality.Web.Model

/-!
# Visits to the pages (`App.js`, `case1.js`, `case2.js`)

The router shows one page at a time. Going to another page unmounts the component of the old one
and mounts a new component: `componentDidMount` adds it to the observers of the model and registers
callbacks, `componentWillUnmount` removes it from the observers. Nothing unregisters a callback:
there is no `off()`. (An error while a page is drawn would take all pages down; what is shown here
can be drawn.)

So in a run (`WebApp.step`) the observers are the mounted component, if any, and there is one
callback of `getUpdatesFor` for every time that `Case2` was mounted so far (`consistent_visited`). A
value event reaches all callbacks that are registered then.
-/

namespace AirQuality.Web

open Machine

/-! ### A value event -/

/-- What is left after all callbacks were called: their variables, the screen, and what they
threw. -/
structure Raised where
  listeners : List Listener
  screen : Screen
  uncaught : List JsError

/-- Firebase calls the callbacks in turn; what one of them throws does not stop the others. -/
def raiseValue (observers : List Component) (snapshot : Snapshot) :
    List Listener → Screen → Raised
  | [], screen => ⟨[], screen, []⟩
  | listener :: listeners, screen =>
    match listener.call observers snapshot screen with
    | .ok listener screen =>
      let rest := raiseValue observers snapshot listeners screen
      ⟨listener :: rest.listeners, rest.screen, rest.uncaught⟩
    | .error e screen =>
      let rest := raiseValue observers snapshot listeners screen
      ⟨listener :: rest.listeners, rest.screen, e :: rest.uncaught⟩

variable {observers : List Component} {snapshot : Snapshot} {listeners : List Listener}

/-- Only callbacks without variables of their own throw. -/
theorem Listener.call_after (observers : List Component) (snapshot : Snapshot)
    (listener : Listener) (screen : Screen) :
    match listener.call observers snapshot screen with
    | .ok listener' _ => listener' = listener.after snapshot
    | .error _ _ => listener.after snapshot = listener := by
  cases listener with
  | latestEntry entry => rfl
  | updatesFor pType =>
    rw [Listener.call_updatesFor]
    simp only [bind, EStateM.bind]
    cases snapshot.forM (fun snap => notifyObservers observers (newVal pType snap)) screen with
    | ok _ _ => rfl
    | error _ _ => rfl
  | latestValues numOfVal pType data => rw [Listener.call_latestValues]

/-- The variables depend on the snapshot only, not on the observers. -/
theorem raiseValue_listeners (observers : List Component) (snapshot : Snapshot)
    (listeners : List Listener) (screen : Screen) :
    (raiseValue observers snapshot listeners screen).listeners =
      listeners.map (·.after snapshot) := by
  induction listeners generalizing screen with
  | nil => rfl
  | cons listener listeners ih =>
    have h_call := Listener.call_after observers snapshot listener screen
    unfold raiseValue
    rw [List.map_cons]
    split
    · next h => rw [h] at h_call; rw [← ih, h_call]
    · next h => rw [h] at h_call; rw [← ih, h_call]

theorem raiseValue_ok (h : ∀ o ∈ observers, o.page = .case2) (screen : Screen) :
    (raiseValue observers snapshot listeners screen).screen =
        (listeners.flatMap (·.notifications snapshot)).foldl (Screen.tellAll observers) screen ∧
      (raiseValue observers snapshot listeners screen).uncaught = [] := by
  induction listeners generalizing screen with
  | nil => exact ⟨rfl, rfl⟩
  | cons listener listeners ih =>
    unfold raiseValue
    rw [Listener.call_ok h, List.flatMap_cons, List.foldl_append]
    exact ih _

theorem raiseValue_quiet (h : listeners.flatMap (·.notifications snapshot) = [])
    (observers : List Component) (screen : Screen) :
    (raiseValue observers snapshot listeners screen).screen = screen ∧
      (raiseValue observers snapshot listeners screen).uncaught = [] := by
  induction listeners generalizing screen with
  | nil => exact ⟨rfl, rfl⟩
  | cons listener listeners ih =>
    obtain ⟨h_listener, h_rest⟩ := List.append_eq_nil_iff.mp h
    unfold raiseValue
    rw [Listener.call_quiet h_listener]
    exact ih h_rest screen

theorem raiseValue_error (h : listeners.flatMap (·.notifications snapshot) ≠ [])
    {observer : Component} (h_page : observer.page = .case1) (observers : List Component)
    (screen : Screen) :
    (raiseValue (observer :: observers) snapshot listeners screen).uncaught ≠ [] := by
  induction listeners generalizing screen with
  | nil => exact absurd rfl h
  | cons listener listeners ih =>
    unfold raiseValue
    by_cases h_listener : listener.notifications snapshot = []
    · rw [Listener.call_quiet h_listener]
      rw [List.flatMap_cons, h_listener] at h
      exact ih h screen
    · rw [(Listener.call_error h_listener h_page observers screen).1]
      exact List.cons_ne_nil _ _

/-! ### The application -/

structure WebApp where
  observers : List Component
  listeners : List Listener
  mounted : Option Component
  created : ℕ
  screen : Screen
  uncaught : List JsError

/-- Before a page is shown. -/
def WebApp.initial : WebApp where
  observers := []
  listeners := []
  mounted := none
  created := 0
  screen := { states := fun _ => .initial, updates := [] }
  uncaught := []

def WebApp.addObserver (observer : Component) (app : WebApp) : WebApp :=
  { app with observers := app.observers ++ [observer] }

def WebApp.removeObserver (observer : Component) (app : WebApp) : WebApp :=
  { app with observers := app.observers.filter fun o => o ≠ observer }

/-- `on("value", callback)`. When the callback is called, with the data that is there already and
whenever the data changes, is a matter of what happens next. -/
def WebApp.on (callback : Listener) (app : WebApp) : WebApp :=
  { app with listeners := app.listeners ++ [callback] }

def WebApp.getLatestEntry (app : WebApp) : WebApp := app.on (.latestEntry none)

def WebApp.getUpdatesFor (pType : String) (app : WebApp) : WebApp := app.on (.updatesFor pType)

/-- The array that it returns is the one that the callback captured: the position of the callback
stands for it. -/
def WebApp.getLatestValues (numOfVal : ℕ) (pType : String) (app : WebApp) : ℕ × WebApp :=
  (app.listeners.length, app.on (.latestValues numOfVal pType []))

def WebApp.componentDidMount (this : Component) (app : WebApp) : WebApp :=
  match this.page with
  | .case1 =>
    let (_dataPM25, app) := (app.addObserver this).getLatestValues 12 "PM2_5"
    let (_dataPM10, app) := app.getLatestValues 12 "PM10"
    app
  | .case2 => (app.addObserver this).getUpdatesFor "PM0_3"

/-- `render`: that of `Case1` asks for the latest entry every time. -/
def WebApp.render (this : Component) (app : WebApp) : WebApp :=
  match this.page with
  | .case1 => app.getLatestEntry
  | .case2 => app

/-- The constructor of a component sets its state. -/
def WebApp.construct (this : Component) (app : WebApp) : WebApp :=
  { app with
    mounted := some this
    created := app.created + 1
    screen := { app.screen with
      states := Function.update app.screen.states this.id .initial } }

/-- A new component is constructed and rendered; then `componentDidMount` is called. -/
def WebApp.mount (page : Page) (app : WebApp) : WebApp :=
  let this : Component := ⟨app.created, page⟩
  ((app.construct this).render this).componentDidMount this

/-- The component goes away; `componentWillUnmount` is the same in both classes. -/
def WebApp.unmount (this : Component) (app : WebApp) : WebApp :=
  { app.removeObserver this with mounted := none }

/-- The routes of `App.js`. -/
inductive Route where
  | welcome
  | case1
  | case2
  | case3
  deriving DecidableEq

/-- The page with a component that uses the model, if it is one. -/
def Route.page : Route → Option Page
  | .case1 => some .case1
  | .case2 => some .case2
  | _ => none

/-- Going to a page. The component stays if its page does. -/
def WebApp.visit (route : Route) (app : WebApp) : WebApp :=
  if app.mounted.map Component.page = route.page then app else
    let app := app.mounted.elim app fun this => app.unmount this
    route.page.elim app fun page => app.mount page

def WebApp.rerender (app : WebApp) : WebApp := app.mounted.elim app fun this => app.render this

/-- The database has changed. -/
def WebApp.value (snapshot : Snapshot) (app : WebApp) : WebApp :=
  let raised := raiseValue app.observers snapshot app.listeners app.screen
  { app with
    listeners := raised.listeners
    screen := raised.screen
    uncaught := app.uncaught ++ raised.uncaught }

@[simp] theorem WebApp.value_observers (snapshot : Snapshot) (app : WebApp) :
    (app.value snapshot).observers = app.observers := rfl

@[simp] theorem WebApp.value_mounted (snapshot : Snapshot) (app : WebApp) :
    (app.value snapshot).mounted = app.mounted := rfl

@[simp] theorem WebApp.value_listeners (snapshot : Snapshot) (app : WebApp) :
    (app.value snapshot).listeners = app.listeners.map (·.after snapshot) :=
  raiseValue_listeners _ _ _ _

inductive Act where
  | visit (route : Route)
  | rerender
  | value (snapshot : Snapshot)
  deriving DecidableEq

def WebApp.step (app : WebApp) : Act → WebApp
  | .visit route => app.visit route
  | .rerender => app.rerender
  | .value snapshot => app.value snapshot

@[simp] theorem WebApp.step_value (app : WebApp) (snapshot : Snapshot) :
    app.step (.value snapshot) = app.value snapshot := rfl

/-- The application after `acts`. -/
def visited (acts : List Act) : WebApp := run WebApp.step .initial acts

/-! ### Where the user is -/

def Act.target : Act → Option Route
  | .visit route => some route
  | _ => none

/-- The page that was visited last. -/
def routeAfter (acts : List Act) : Route := lastOf Act.target .welcome acts

def onCase2 (acts : List Act) : Bool := decide (routeAfter acts = .case2)

/-- How many times `Case2` was mounted: the visits to it from elsewhere. -/
def case2Mounts (acts : List Act) : ℕ := countAlong (rises onCase2) acts

@[simp] theorem routeAfter_concat (acts : List Act) (act : Act) :
    routeAfter (acts ++ [act]) = act.target.getD (routeAfter acts) :=
  lastOf_concat _ _ _ _

theorem case2Mounts_concat (acts : List Act) (act : Act) :
    case2Mounts (acts ++ [act]) = case2Mounts acts + (rises onCase2 acts act).toNat :=
  countAlong_concat _ _ _

/-- `Case2` was mounted once more than it was unmounted if it is mounted, and as often if not. -/
theorem case2Mounts_eq (acts : List Act) :
    case2Mounts acts = countAlong (falls onCase2) acts + (onCase2 acts).toNat :=
  countAlong_rises rfl acts

/-- `Case2` was mounted if it was visited. -/
theorem case2Mounts_pos {acts : List Act} : 1 ≤ case2Mounts acts ↔ .visit .case2 ∈ acts := by
  induction acts using List.reverseRecOn with
  | nil => simp [case2Mounts]
  | append_singleton acts act ih =>
    by_cases h_act : act = .visit .case2
    · -- it is mounted now
      have h_on : onCase2 (acts ++ [act]) = true := by
        rw [h_act, onCase2, routeAfter_concat]
        rfl
      have h_eq := case2Mounts_eq (acts ++ [act])
      rw [h_on, Bool.toNat_true] at h_eq
      refine ⟨fun _ => by simp [h_act], fun _ => ?_⟩
      omega
    · have h_rises : rises onCase2 acts act = false := by
        cases act with
        | visit route =>
          have h_route : route ≠ .case2 := fun h => h_act (by rw [h])
          simp [rises, onCase2, Act.target, h_route]
        | rerender => simp [rises, onCase2, Act.target]
        | value snapshot => simp [rises, onCase2, Act.target]
      rw [case2Mounts_concat, h_rises, Bool.toNat_false, Nat.add_zero, ih]
      simp [Ne.symm h_act]

end AirQuality.Web
