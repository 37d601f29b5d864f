import AirQuality.Framework.JsonSound

/-!
# Storing a report (`store_Sensor_Data_to_DB.py`)

The subscriber hands each MQTT payload to `Air_Quality_Data_Handler`, which parses it as JSON,
takes element 0, looks up seven keys, renames six of them, and posts the result under
`"Air quality"`. Subscripting fails with the exception that Python raises for the type at hand, and
then nothing is posted.

A payload is a list of characters, one for each byte. What the handler uses of Python is a
parameter (`PyRuntime`), since `json.loads` accepts some texts that are no JSON, such as `NaN` and
lone surrogates, and gives up on others that are, such as those with very long integers or very deep
nesting. `PyRuntime.standard` is a reader of standard JSON, which Python is too on the reports of a
node. For this one, what the handler accepts can be said in terms of the grammar
(`airQualityData_standard_iff`): a JSON text of an array whose first element is an object with the
seven keys. Anything else is an exception and no post.
-/

namespace AirQuality

open Json

/-- The exceptions a payload can cause. -/
inductive PyError where
  | jsonDecodeError
  | indexError
  | keyError
  | typeError
  | valueError
  | recursionError
  deriving DecidableEq

/-- One `firebase.post(path, data)`; `data` is a dictionary. -/
structure PostOf (Obj : Type) where
  path : String
  data : List (List Char × Obj)

/-- A post of JSON values. -/
abbrev Post := PostOf Value

/-- What the handler uses of Python: `json.loads`, `v[0]` and `v[key]`. -/
structure PyRuntime where
  Obj : Type
  loads : List Char → Except PyError Obj
  subscriptZero : Obj → Except PyError Obj
  subscriptKey : Obj → String → Except PyError Obj

/-- The dictionary that `Air_Quality_Data_Handler` posts. -/
def airQualityData (py : PyRuntime) (jsonData : List Char) : Except PyError (PostOf py.Obj) := do
  let jsonDict ← py.loads jsonData
  let sec ← py.subscriptKey (← py.subscriptZero jsonDict) "Sec"
  let pm0_3 ← py.subscriptKey (← py.subscriptZero jsonDict) "DB0_3"
  let pm0_5 ← py.subscriptKey (← py.subscriptZero jsonDict) "DB0_5"
  let pm1 ← py.subscriptKey (← py.subscriptZero jsonDict) "DB1"
  let pm2_5 ← py.subscriptKey (← py.subscriptZero jsonDict) "DB2_5"
  let pm5 ← py.subscriptKey (← py.subscriptZero jsonDict) "DB5"
  let pm10 ← py.subscriptKey (← py.subscriptZero jsonDict) "DB10"
  let airQualityData := [("Sec".toList, sec), ("PM0_3".toList, pm0_3), ("PM0_5".toList, pm0_5),
    ("PM1".toList, pm1), ("PM2_5".toList, pm2_5), ("PM5".toList, pm5), ("PM10".toList, pm10)]
  pure ⟨"Air quality", airQualityData⟩

/-! ### Standard JSON -/

/-- The value of a key: of several equal keys in a JSON object, the last one counts. -/
def dictGet (kvs : List (List Char × Value)) (key : String) : Option Value :=
  (kvs.reverse.find? fun kv => kv.1 == key.toList).map Prod.snd

/-- `v[0]`. -/
def subscriptZero : Value → Except PyError Value
  | .arr (v :: _) => .ok v
  | .arr [] => .error .indexError
  | .str (c :: _) => .ok (.str [c])
  | .str [] => .error .indexError
  | .obj _ => .error .keyError
  | _ => .error .typeError

/-- `v[key]`. -/
def subscriptKey (v : Value) (key : String) : Except PyError Value :=
  match v with
  | .obj kvs =>
    match dictGet kvs key with
    | some v => .ok v
    | none => .error .keyError
  | _ => .error .typeError

/-- `json.loads`, of standard JSON. -/
def jsonLoads (jsonData : List Char) : Except PyError Value :=
  match loads jsonData with
  | some v => .ok v
  | none => .error .jsonDecodeError

/-- Python with a reader of standard JSON. -/
abbrev PyRuntime.standard : PyRuntime where
  Obj := Value
  loads := jsonLoads
  subscriptZero := AirQuality.subscriptZero
  subscriptKey := AirQuality.subscriptKey

/-- **`Air_Quality_Data_Handler`**: the posts in the database afterwards, if it keeps them. -/
def airQualityDataHandler (jsonData : List Char) (database : List Post) :
    Except PyError (List Post) := do
  let post ← airQualityData .standard jsonData
  pure (database ++ [post])

/-- The seven values of a report, in the order in which the handler looks them up. -/
structure ReportValues (Obj : Type) where
  sec : Obj
  db0_3 : Obj
  db0_5 : Obj
  db1 : Obj
  db2_5 : Obj
  db5 : Obj
  db10 : Obj

/-- The record that is posted for them. -/
def ReportValues.post {Obj : Type} (v : ReportValues Obj) : PostOf Obj where
  path := "Air quality"
  data := [("Sec".toList, v.sec), ("PM0_3".toList, v.db0_3), ("PM0_5".toList, v.db0_5),
    ("PM1".toList, v.db1), ("PM2_5".toList, v.db2_5), ("PM5".toList, v.db5),
    ("PM10".toList, v.db10)]

/-! ### What the handler posts -/

/-- The values are what the seven look-ups in `e` give. -/
structure ReportValues.Of {py : PyRuntime} (v : ReportValues py.Obj) (e : py.Obj) : Prop where
  sec : py.subscriptKey e "Sec" = .ok v.sec
  db0_3 : py.subscriptKey e "DB0_3" = .ok v.db0_3
  db0_5 : py.subscriptKey e "DB0_5" = .ok v.db0_5
  db1 : py.subscriptKey e "DB1" = .ok v.db1
  db2_5 : py.subscriptKey e "DB2_5" = .ok v.db2_5
  db5 : py.subscriptKey e "DB5" = .ok v.db5
  db10 : py.subscriptKey e "DB10" = .ok v.db10

/-- A computation that raises nothing does not raise in its first step. -/
theorem ok_of_bind {α β : Type} {x : Except PyError α} {f : α → Except PyError β} {b : β}
    (h : (x >>= f) = .ok b) : ∃ a, x = .ok a ∧ f a = .ok b := by
  match x, h with
  | .ok a, h => exact ⟨a, rfl, h⟩

section

variable {py : PyRuntime}

/-- One of the seven look-ups, in a payload with the element 0 `e`. -/
theorem lookup_ok {β : Type} {jsonDict e : py.Obj} (h_zero : py.subscriptZero jsonDict = .ok e)
    {key : String} {f : py.Obj → Except PyError β} {b : β}
    (h : (do let e ← py.subscriptZero jsonDict; let x ← py.subscriptKey e key; f x) = .ok b) :
    ∃ x, py.subscriptKey e key = .ok x ∧ f x = .ok b := by
  obtain ⟨e', h_zero', h_lookup⟩ := ok_of_bind h
  obtain rfl : e = e' := Except.ok.inj (h_zero.symm.trans h_zero')
  exact ok_of_bind h_lookup

/-- **What the handler accepts, and what it posts then**, whatever Python is like. -/
theorem airQualityData_ok_iff {jsonData : List Char} {post : PostOf py.Obj} :
    airQualityData py jsonData = .ok post ↔ ∃ (jsonDict e : py.Obj) (v : ReportValues py.Obj),
      py.loads jsonData = .ok jsonDict ∧ py.subscriptZero jsonDict = .ok e ∧ v.Of e ∧
      post = v.post := by
  constructor
  · intro h
    obtain ⟨jsonDict, h_json, h⟩ := ok_of_bind h
    -- the first look-up shows that there is an element 0
    obtain ⟨e, h_zero, -⟩ := ok_of_bind h
    obtain ⟨sec, h_sec, h⟩ := lookup_ok h_zero h
    obtain ⟨x₁, h₁, h⟩ := lookup_ok h_zero h
    obtain ⟨x₂, h₂, h⟩ := lookup_ok h_zero h
    obtain ⟨x₃, h₃, h⟩ := lookup_ok h_zero h
    obtain ⟨x₄, h₄, h⟩ := lookup_ok h_zero h
    obtain ⟨x₅, h₅, h⟩ := lookup_ok h_zero h
    obtain ⟨x₆, h₆, h⟩ := lookup_ok h_zero h
    exact ⟨jsonDict, e, ⟨sec, x₁, x₂, x₃, x₄, x₅, x₆⟩, h_json, h_zero,
      ⟨h_sec, h₁, h₂, h₃, h₄, h₅, h₆⟩, (Except.ok.inj h).symm⟩
  · rintro ⟨jsonDict, e, v, h_json, h_zero, h_of, rfl⟩
    unfold airQualityData
    simp only [bind, Except.bind, h_json, h_zero, h_of.sec, h_of.db0_3, h_of.db0_5, h_of.db1,
      h_of.db2_5, h_of.db5, h_of.db10]
    rfl

end

/-! ### What it accepts of standard JSON -/

/-- The dictionary has the seven values under the keys of the node. -/
structure ReportValues.In (v : ReportValues Value) (kvs : List (List Char × Value)) : Prop where
  sec : dictGet kvs "Sec" = some v.sec
  db0_3 : dictGet kvs "DB0_3" = some v.db0_3
  db0_5 : dictGet kvs "DB0_5" = some v.db0_5
  db1 : dictGet kvs "DB1" = some v.db1
  db2_5 : dictGet kvs "DB2_5" = some v.db2_5
  db5 : dictGet kvs "DB5" = some v.db5
  db10 : dictGet kvs "DB10" = some v.db10

theorem jsonLoads_ok {jsonData : List Char} {v : Value} :
    jsonLoads jsonData = .ok v ↔ Text jsonData v := by
  rw [← loads_iff]
  unfold jsonLoads
  split
  · next w h => simp [h]
  · next h => simp [h]

/-- Only an object has keys. -/
theorem subscriptKey_ok {v x : Value} {key : String} :
    subscriptKey v key = .ok x ↔ ∃ kvs, v = .obj kvs ∧ dictGet kvs key = some x := by
  constructor
  · intro h
    unfold subscriptKey at h
    split at h
    · next kvs =>
      split at h
      · next y h_get =>
        obtain rfl : y = x := Except.ok.inj h
        exact ⟨kvs, rfl, h_get⟩
      · cases h
    · cases h
  · rintro ⟨kvs, rfl, h_get⟩
    simp only [subscriptKey, h_get]

/-- An object can only be element 0 of an array: that of a string is a string. -/
theorem subscriptZero_obj {v : Value} {kvs : List (List Char × Value)} :
    subscriptZero v = .ok (.obj kvs) ↔ ∃ vs, v = .arr (.obj kvs :: vs) := by
  constructor
  · intro h
    unfold subscriptZero at h
    split at h
    case h_1 w vs =>
      obtain rfl : w = .obj kvs := Except.ok.inj h
      exact ⟨vs, rfl⟩
    all_goals cases h
  · rintro ⟨vs, rfl⟩
    rfl

/-- The look-ups succeed in a dictionary with the seven keys, and in nothing else. -/
theorem ReportValues.of_iff {v : ReportValues Value} {e : Value} :
    @ReportValues.Of .standard v e ↔ ∃ kvs, e = .obj kvs ∧ v.In kvs := by
  constructor
  · intro h
    obtain ⟨kvs, rfl, h_sec⟩ := subscriptKey_ok.mp h.sec
    have h_get {key : String} {x : Value} (h_key : subscriptKey (.obj kvs) key = .ok x) :
        dictGet kvs key = some x := by
      obtain ⟨kvs', h_eq, h_get⟩ := subscriptKey_ok.mp h_key
      obtain rfl : kvs = kvs' := Value.obj.inj h_eq
      exact h_get
    exact ⟨kvs, rfl, h_sec, h_get h.db0_3, h_get h.db0_5, h_get h.db1, h_get h.db2_5, h_get h.db5,
      h_get h.db10⟩
  · rintro ⟨kvs, rfl, h⟩
    have h_key {key : String} {x : Value} (h_get : dictGet kvs key = some x) :
        subscriptKey (.obj kvs) key = .ok x := subscriptKey_ok.mpr ⟨kvs, rfl, h_get⟩
    exact ⟨h_key h.sec, h_key h.db0_3, h_key h.db0_5, h_key h.db1, h_key h.db2_5, h_key h.db5,
      h_key h.db10⟩

/-- **What the handler accepts.** The payload is a JSON array whose element 0 is an object with the
seven keys; other elements and other keys do not matter. -/
theorem airQualityData_standard_iff {jsonData : List Char} {post : Post} :
    airQualityData .standard jsonData = .ok post ↔
      ∃ (kvs : List (List Char × Value)) (vs : List Value) (v : ReportValues Value),
        Text jsonData (.arr (.obj kvs :: vs)) ∧ v.In kvs ∧ post = v.post := by
  rw [airQualityData_ok_iff]
  constructor
  · rintro ⟨jsonDict, e, v, h_json, h_zero, h_of, rfl⟩
    obtain ⟨kvs, rfl, h_in⟩ := ReportValues.of_iff.mp h_of
    obtain ⟨vs, rfl⟩ := subscriptZero_obj.mp h_zero
    exact ⟨kvs, vs, v, jsonLoads_ok.mp h_json, h_in, rfl⟩
  · rintro ⟨kvs, vs, v, h_text, h_in, rfl⟩
    exact ⟨_, _, v, jsonLoads_ok.mpr h_text, subscriptZero_obj.mpr ⟨vs, rfl⟩,
      ReportValues.of_iff.mpr ⟨kvs, rfl, h_in⟩, rfl⟩

theorem airQualityDataHandler_ok {jsonData : List Char} {post : Post}
    (h : airQualityData .standard jsonData = .ok post) (database : List Post) :
    airQualityDataHandler jsonData database = .ok (database ++ [post]) := by
  unfold airQualityDataHandler
  rw [h]
  rfl

end AirQuality
