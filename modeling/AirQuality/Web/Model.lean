import AirQuality.Framework.Effect
import Mathlib.Algebra.Order.Ring.Rat
import Mathlib.Data.List.DropRight
import Mathlib.Logic.Function.Basic
import Mathlib.Order.WithBot

/-!
# The model of the web page (`ObservableModel.js`, `model.js`, `case2.js`)

The pages share one `Model`. It keeps two registries: the callbacks that it gave to Firebase with
`on("value", …)` (`Listener`), and the React components in `_observers`. A value event calls every
callback with a snapshot of the database. The callback of `getUpdatesFor` walks over the entries and
passes each of them to `update()` of every observer (`notifyObservers`); the callbacks of
`getLatestEntry` and `getLatestValues` only write variables they captured.

`Case2` has an `update` method. `Case1` has none (it is commented out), so a call of it is a
`TypeError`, which leaves the loops it is raised in and ends the callback. Firebase catches what a
callback throws, calls the next one, and hands the exception to the browser.

What a callback does is stated once, on the notifications that it has for a snapshot
(`Listener.notifications`): if all observers have the method, it passes these on (`call_ok`); if it
has none, it passes on nothing (`call_quiet`); and otherwise the first observer without the method
ends it (`call_error`).
-/

namespace AirQuality.Web

/-! ### What the database delivers -/

/-- What JavaScript compares: a number or one of the infinities, which a string may stand for. -/
abbrev JsNumber := WithBot (WithTop ℚ)

/-- What a property of an entry can be: any value that a database keeps, or `undefined` if the entry
has no such property. A string and an array carry, besides their text, the number that they are
converted to in a comparison, or `none` for `NaN`. An object is converted to `NaN`, and so is an
array with an object in it, which is an `object` here; those that cannot be converted, since a key
`toString` hides the method, are left out.

`===` is equality: two objects are never identical, but a state that is set to an equal value is the
same state. -/
inductive JsValue where
  | undefined
  | null
  | bool (b : Bool)
  | number (x : ℚ)
  | string (text : String) (value : Option JsNumber)
  | array (json : String) (value : Option JsNumber)
  | object (json : String)
  deriving DecidableEq

/-- The number that JavaScript compares, or `none` for `NaN`. -/
def JsValue.toNumber : JsValue → Option JsNumber
  | .undefined => none
  | .null => some ((0 : ℚ) : WithTop ℚ)
  | .bool b => some ((if b then 1 else 0 : ℚ) : WithTop ℚ)
  | .number x => some (x : WithTop ℚ)
  | .string _ value => value
  | .array _ value => value
  | .object _ => none

/-- `v < x`; comparisons with `NaN` are false. -/
def JsValue.lessThan (v : JsValue) (x : ℚ) : Bool :=
  match v.toNumber with
  | some y => decide (y < (x : WithTop ℚ))
  | none => false

@[simp] theorem JsValue.lessThan_number (x y : ℚ) :
    (JsValue.number x).lessThan y = decide (x < y) := by
  simp [JsValue.lessThan, JsValue.toNumber]

/-- What React can draw. For an object it raises an exception. -/
def JsValue.drawable : JsValue → Bool
  | .object _ => false
  | _ => true

/-- A record below `"Air quality"`, as `snap.val()` returns it. Records with a value that cannot be
drawn are left out: the page that they are shown on is taken down. -/
structure Entry where
  fields : List (String × JsValue)
  drawable : ∀ field ∈ fields, field.2.drawable = true
  deriving DecidableEq

/-- An entry with one number. -/
def Entry.ofNumber (pType : String) (x : ℚ) : Entry where
  fields := [(pType, .number x)]
  drawable := by simp [JsValue.drawable]

/-- `entry[pType]`. -/
def Entry.get (entry : Entry) (pType : String) : JsValue :=
  (entry.fields.lookup pType).getD .undefined

@[simp] theorem Entry.get_ofNumber (pType : String) (x : ℚ) :
    (Entry.ofNumber pType x).get pType = .number x := by simp [Entry.get, Entry.ofNumber]

/-- The entries, in key order. -/
abbrev Snapshot := List Entry

/-- The snapshot of the query `orderByKey().limitToLast(n)`. -/
def limitToLast (n : ℕ) (snapshot : Snapshot) : Snapshot := snapshot.rtake n

theorem length_limitToLast (n : ℕ) (snapshot : Snapshot) :
    (limitToLast n snapshot).length = min n snapshot.length := by
  unfold limitToLast List.rtake
  rw [List.length_drop]
  omega

theorem limitToLast_eq_nil {n : ℕ} (hn : 1 ≤ n) {snapshot : Snapshot} :
    limitToLast n snapshot = [] ↔ snapshot = [] := by
  rw [← List.length_eq_zero_iff, length_limitToLast, ← List.length_eq_zero_iff]
  omega

/-! ### Components -/

/-- The two pages that use the model. -/
inductive Page where
  | case1
  | case2
  deriving DecidableEq

/-- A React component; `id` tells one object from another. -/
structure Component where
  id : ℕ
  page : Page
  deriving DecidableEq

/-- The argument of `update()`. -/
structure ChangeDetails where
  type : String
  value : JsValue
  ptype : String
  deriving DecidableEq

/-- What `getUpdatesFor(pType)` notifies for an entry. -/
def newVal (pType : String) (entry : Entry) : ChangeDetails where
  type := "new-val"
  value := entry.get pType
  ptype := pType

inductive Status where
  | loading
  | updated
  deriving DecidableEq

/-- `this.state` of `Case2`. There is no value while it is waiting for data. -/
structure Case2State where
  status : Status
  currentVal : JsValue
  waiting : status = .loading → currentVal = .null
  deriving DecidableEq

/-- The state that the constructor sets. -/
def Case2State.initial : Case2State where
  status := .loading
  currentVal := .null
  waiting := fun _ => rfl

/-- `setState({ status: "UPDATED", currentVal: value })`. -/
def Case2State.updatedTo (value : JsValue) : Case2State where
  status := .updated
  currentVal := value
  waiting := fun h => by cases h

/-- `update` of `Case2`. -/
def Case2State.update (state : Case2State) (changeDetails : ChangeDetails) : Case2State :=
  if changeDetails.type = "new-val" then
    if changeDetails.value ≠ state.currentVal then .updatedTo changeDetails.value else state
  else state

/-- **A number is always shown.** Nothing is set if it is shown already, but then the component is
not waiting any more. -/
theorem Case2State.update_number (state : Case2State) {changeDetails : ChangeDetails} {x : ℚ}
    (h_type : changeDetails.type = "new-val") (h_value : changeDetails.value = .number x) :
    state.update changeDetails = .updatedTo (.number x) := by
  unfold Case2State.update
  rw [if_pos h_type, h_value]
  split
  case isTrue => rfl
  case isFalse h_same =>
    obtain ⟨status, currentVal, waiting⟩ := state
    obtain rfl : JsValue.number x = currentVal := not_not.mp h_same
    cases status with
    | loading => cases waiting rfl
    | updated => rfl

inductive Light where
  | green
  | red
  deriving DecidableEq

/-- `lightBtn` in `render` of `Case2`. -/
def Case2State.lightBtn (state : Case2State) : Option Light :=
  match state.status with
  | .loading => none
  | .updated => some (if state.currentVal.lessThan 1000 then .green else .red)

/-- The `update` method of a component's class. -/
def updateMethod : Page → Option (Case2State → ChangeDetails → Case2State)
  | .case1 => none
  | .case2 => some Case2State.update

/-! ### Notifications -/

inductive JsError where
  | typeError
  deriving DecidableEq

/-- The components' states, and the calls of `update()` so far. -/
structure Screen where
  states : ℕ → Case2State
  updates : List (Component × ChangeDetails)

/-- What the calls of its `update()` have told a component. -/
def Screen.received (screen : Screen) (observer : Component) : List ChangeDetails :=
  (screen.updates.filter fun u => u.1 = observer).map Prod.snd

/-- `observer.update(this, changeDetails)`. -/
def Component.update (observer : Component) (changeDetails : ChangeDetails) :
    EStateM JsError Screen Unit :=
  match updateMethod observer.page with
  | none => throw .typeError
  | some method => modify fun screen =>
    { states := Function.update screen.states observer.id
        (method (screen.states observer.id) changeDetails)
      updates := screen.updates ++ [(observer, changeDetails)] }

def notifyObservers (observers : List Component) (changeDetails : ChangeDetails) :
    EStateM JsError Screen Unit :=
  observers.forM fun observer => observer.update changeDetails

/-- The screen after an update of a `Case2` component. -/
def Screen.tell (screen : Screen) (observer : Component) (changeDetails : ChangeDetails) :
    Screen where
  states := Function.update screen.states observer.id
    ((screen.states observer.id).update changeDetails)
  updates := screen.updates ++ [(observer, changeDetails)]

theorem Component.update_case2 {observer : Component} (h : observer.page = .case2)
    (changeDetails : ChangeDetails) (screen : Screen) :
    observer.update changeDetails screen = .ok () (screen.tell observer changeDetails) := by
  unfold Component.update
  rw [h]
  rfl

theorem Component.update_case1 {observer : Component} (h : observer.page = .case1)
    (changeDetails : ChangeDetails) (screen : Screen) :
    observer.update changeDetails screen = .error .typeError screen := by
  unfold Component.update
  rw [h]
  rfl

/-- The screen after every observer in `observers` was told. -/
def Screen.tellAll (observers : List Component) (screen : Screen) (changeDetails : ChangeDetails) :
    Screen :=
  observers.foldl (fun screen observer => screen.tell observer changeDetails) screen

theorem notifyObservers_ok {observers : List Component} (h : ∀ o ∈ observers, o.page = .case2)
    (changeDetails : ChangeDetails) (screen : Screen) :
    notifyObservers observers changeDetails screen =
      .ok () (screen.tellAll observers changeDetails) :=
  Effect.forM_ok (fun o ho s => Component.update_case2 (h o ho) changeDetails s) screen

theorem notifyObservers_error {observer : Component} (h : observer.page = .case1)
    (observers : List Component) (changeDetails : ChangeDetails) (screen : Screen) :
    notifyObservers (observer :: observers) changeDetails screen = .error .typeError screen :=
  Effect.forM_error (Component.update_case1 h changeDetails screen)

/-! ### The callbacks -/

/-- A callback given to `on("value", …)`, with the variables that it captured. That of
`getUpdatesFor` sets its `entry` before it reads it, so it has none to keep. -/
inductive Listener where
  | latestEntry (entry : Option Entry)
  | updatesFor (pType : String)
  | latestValues (numOfVal : ℕ) (pType : String) (data : List JsValue)
  deriving DecidableEq

/-- The callback is called with a snapshot of the whole list, which its query limits. -/
def Listener.call (observers : List Component) (snapshot : Snapshot) :
    Listener → EStateM JsError Screen Listener
  | .latestEntry entry =>
    pure (.latestEntry ((limitToLast 1 snapshot).foldl (fun _ snap => some snap) entry))
  | .updatesFor pType => do
    snapshot.forM fun snap => notifyObservers observers (newVal pType snap)
    pure (.updatesFor pType)
  | .latestValues numOfVal pType data =>
    pure (.latestValues numOfVal pType
      ((limitToLast numOfVal snapshot).foldl (fun data snap => data ++ [snap.get pType]) data))

/-- The callback's variables after it was called. -/
def Listener.after (listener : Listener) (snapshot : Snapshot) : Listener :=
  match listener with
  | .latestEntry entry =>
    .latestEntry ((limitToLast 1 snapshot).foldl (fun _ snap => some snap) entry)
  | .updatesFor pType => .updatesFor pType
  | .latestValues numOfVal pType data =>
    .latestValues numOfVal pType (data ++ (limitToLast numOfVal snapshot).map (·.get pType))

/-- What the callback has to tell the observers. -/
def Listener.notifications (snapshot : Snapshot) : Listener → List ChangeDetails
  | .updatesFor pType => snapshot.map (newVal pType)
  | _ => []

/-- `push` in a loop appends. -/
theorem foldl_push (pType : String) (snapshot : Snapshot) (data : List JsValue) :
    snapshot.foldl (fun data snap => data ++ [snap.get pType]) data =
      data ++ snapshot.map (·.get pType) := by
  induction snapshot generalizing data with
  | nil => simp
  | cons snap snapshot ih => rw [List.foldl_cons, ih, List.map_cons, List.append_assoc]; rfl

theorem Listener.call_updatesFor (observers : List Component) (snapshot : Snapshot)
    (pType : String) (screen : Screen) :
    (Listener.updatesFor pType).call observers snapshot screen =
      ((snapshot.forM fun snap => notifyObservers observers (newVal pType snap)) >>=
        fun _ => pure (.updatesFor pType)) screen := rfl

theorem Listener.call_latestValues (observers : List Component) (snapshot : Snapshot)
    (numOfVal : ℕ) (pType : String) (data : List JsValue) (screen : Screen) :
    (Listener.latestValues numOfVal pType data).call observers snapshot screen =
      .ok ((Listener.latestValues numOfVal pType data).after snapshot) screen := by
  show EStateM.Result.ok (Listener.latestValues numOfVal pType (List.foldl _ data _)) screen = _
  rw [foldl_push]
  rfl

/-- **A callback whose observers have `update`** passes on all its notifications. -/
theorem Listener.call_ok {observers : List Component} (h : ∀ o ∈ observers, o.page = .case2)
    (snapshot : Snapshot) (listener : Listener) (screen : Screen) :
    listener.call observers snapshot screen = .ok (listener.after snapshot)
      ((listener.notifications snapshot).foldl (Screen.tellAll observers) screen) := by
  cases listener with
  | latestEntry entry => rfl
  | updatesFor pType =>
    have h_step : ∀ snap ∈ snapshot, ∀ s, notifyObservers observers (newVal pType snap) s =
        .ok () (s.tellAll observers (newVal pType snap)) :=
      fun snap _ s => notifyObservers_ok h (newVal pType snap) s
    rw [Listener.call_updatesFor]
    simp only [bind, EStateM.bind, Effect.forM_ok h_step screen]
    show _ = EStateM.Result.ok _ ((snapshot.map (newVal pType)).foldl _ screen)
    rw [List.foldl_map]
    rfl
  | latestValues numOfVal pType data => exact Listener.call_latestValues _ _ _ _ _ _

/-- A callback without notifications leaves the components alone, whatever they are. -/
theorem Listener.call_quiet {listener : Listener} {snapshot : Snapshot}
    (h : listener.notifications snapshot = []) (observers : List Component) (screen : Screen) :
    listener.call observers snapshot screen = .ok (listener.after snapshot) screen := by
  cases listener with
  | latestEntry entry => rfl
  | updatesFor pType =>
    obtain rfl : snapshot = [] := List.map_eq_nil_iff.mp h
    rfl
  | latestValues numOfVal pType data => exact Listener.call_latestValues _ _ _ _ _ _

/-- **A callback ends at the first observer without `update`.** -/
theorem Listener.call_error {listener : Listener} {snapshot : Snapshot}
    (h : listener.notifications snapshot ≠ []) {observer : Component}
    (h_page : observer.page = .case1) (observers : List Component) (screen : Screen) :
    listener.call (observer :: observers) snapshot screen = .error .typeError screen ∧
      listener.after snapshot = listener := by
  cases listener with
  | latestEntry entry => exact absurd rfl h
  | updatesFor pType =>
    refine ⟨?_, rfl⟩
    cases snapshot with
    | nil => exact absurd rfl h
    | cons snap snapshot =>
      -- the first entry already raises, so the loop goes no further
      have h_first := notifyObservers_error h_page observers (newVal pType snap) screen
      have h_loop : (snap :: snapshot).forM
          (fun snap => notifyObservers (observer :: observers) (newVal pType snap)) screen =
          .error .typeError screen := Effect.forM_error h_first
      rw [Listener.call_updatesFor]
      simp only [bind, EStateM.bind, h_loop]
  | latestValues numOfVal pType data => exact absurd rfl h

end AirQuality.Web
