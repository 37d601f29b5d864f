import AirQuality.Framework.JsonComplete
import AirQuality.Framework.JsonRender

/-!
# Texts that no continuation mends

`Refused t` says that no value can be read from a text that starts with `t`, whatever follows. An
array is refused at the first character behind an element that is neither a comma nor the closing
bracket (`refused_arr`) and at an element that is refused (`refused_arr_item`), and an object at a
member whose value is (`refused_obj`). By completeness of the reader such a text denotes nothing
(`Refused.not_denotes`).

The second part applies this to sequences written in groups, with commas inside the groups and
nothing between them (`groupsText`): they are a comma-separated sequence as long as at most one
group has elements (`groupsText_eq`), and otherwise an element follows another one directly
(`exists_adjacent`).
-/

namespace Json

/-! ### Refusal -/

/-- No value is read from a text that starts with `t`. -/
def Refused (t : List Char) : Prop := ∀ n, t.length < n → ∀ r, readValue n (t ++ r) = none

/-- The character cannot follow an element of an array, nor continue it. -/
structure Misplaced (c : Char) : Prop where
  stops : ∀ r, Stops (c :: r)
  noWs : ∀ r, NoWs (c :: r)
  ne_comma : c ≠ ','
  ne_bracket : c ≠ ']'

/-- A brace that opens an object is misplaced behind an element. -/
theorem misplaced_brace : Misplaced '\x7b' where
  stops := fun _ => Stops.cons (by decide) (by decide) (by decide) (by decide)
  noWs := fun _ => NoWs.cons (by decide)
  ne_comma := by decide
  ne_bracket := by decide

theorem Refused.not_denotes {t u : List Char} (h : Refused t) (h_pre : t <+: u) {v : Value} :
    ¬ Denotes u v := by
  obtain ⟨r, rfl⟩ := h_pre
  intro hv
  have h_none := h ((t ++ r).length + 1) (by simp only [List.length_append]; omega) r
  have h_some := readValue_append hv ((t ++ r).length + 1) (by omega) [] Stops.nil
  rw [List.append_nil, h_none] at h_some
  cases h_some

/-- Such a text does not parse. -/
theorem Refused.loads_eq_none {t u : List Char} (h : Refused t) (h_noWs : NoWs t) (hne : t ≠ [])
    (h_pre : t <+: u) : loads u = none := by
  obtain ⟨r, rfl⟩ := h_pre
  have h_read := h ((t ++ r).length + 1) (by simp only [List.length_append]; omega) r
  unfold loads
  rw [skipWs_of_noWs (h_noWs.append hne), h_read]
  rfl

/-- The loop is stuck behind elements that it can read, at a character that neither closes the
sequence nor opens an item that it can read. -/
theorem items_stuck {α : Type} {p : Reader α} {close c : Char} {r : List Char}
    (hne : close ≠ ',') (hs : Stops (c :: r)) (hw : NoWs (c :: r)) (h_close : c ≠ close)
    (h_item : c = ',' → p (skipWs r) = none) :
    ∀ es : List (Padded α), es ≠ [] → (∀ e ∈ es, e.ReadBy p) → ∀ n,
      items p close n (joinComma (es.map Padded.chars) ++ c :: r) = none := by
  intro es
  induction es with
  | nil => exact fun h => absurd rfl h
  | cons e es ih =>
    intro _ h n
    cases n with
    | zero => rfl
    | succ n =>
      by_cases hes : es = []
      · -- the character stands behind the last element
        subst hes
        obtain ⟨r', h_read, h_skip⟩ := (h e (by simp)).step hs hw
        have h_rest : c = ',' → items p close n r = none := by
          intro hc
          cases n with
          | zero => rfl
          | succ n => simp [items, h_item hc]
        change items p close (n + 1) (e.chars ++ c :: r) = _
        simp +contextual [items, h_read, h_skip, h_close, h_rest]
      · have h_comma : IsDelim ',' := Or.inl rfl
        obtain ⟨r', h_read, h_skip⟩ := (h e (by simp)).step
          (h_comma.stops (joinComma (es.map Padded.chars) ++ c :: r)) (h_comma.noWs _)
        have h_rest := ih hes (fun x hx => h x (List.mem_cons_of_mem _ hx)) n
        -- the comma behind `e` is read, and the loop is stuck further on
        rw [List.map_cons, joinComma_cons (by simpa using hes), List.append_assoc,
          List.cons_append]
        simp [items, h_read, h_skip, Ne.symm hne, h_rest]

/-- So is the whole sequence, unless it is closed at once. -/
theorem bracketed_stuck {α : Type} {p : Reader α} {close c : Char} {r : List Char}
    (hne : close ≠ ',') (hs : Stops (c :: r)) (hw : NoWs (c :: r)) (h_close : c ≠ close)
    (h_item : c = ',' → p (skipWs r) = none) {es : List (Padded α)} (hes : es ≠ [])
    (h : ∀ e ∈ es, e.ReadBy p) (h_open : ∀ e ∈ es, Opens close e.text) :
    bracketed p close (joinComma (es.map Padded.chars) ++ c :: r) = none := by
  obtain ⟨x, u, h_skip, hx⟩ := skipWs_joinComma hes h h_open (c :: r)
  unfold bracketed
  rw [h_skip]
  simp only [if_neg hx]
  exact items_stuck hne hs hw h_close h_item es hes h _

/-- **An array is refused** at a character behind an element that is neither a comma nor the closing
bracket. -/
theorem refused_arr (es : List Element) (hes : es ≠ []) (h : ∀ e ∈ es, Denotes e.text e.value)
    {c : Char} (hc : Misplaced c) :
    Refused ('[' :: (joinComma (es.map Padded.chars) ++ [c])) := by
  intro n hn r
  obtain ⟨n, rfl⟩ : ∃ m, n = m + 1 := ⟨n - 1, by omega⟩
  have h_read : ∀ e ∈ es, e.ReadBy (readValue n) := by
    intro e he
    have h_len := length_text_le_joinComma he
    simp only [List.length_cons, List.length_append] at hn
    exact (h e he).readBy (readValue_append (h e he) n (by omega))
  have h_br := bracketed_stuck (by decide) (hc.stops r) (hc.noWs r) hc.ne_bracket
    (fun h_comma => absurd h_comma hc.ne_comma) hes h_read fun e he => (h e he).head.2.2.1
  rw [List.cons_append, List.append_assoc, readValue_bracket]
  change Option.map _ (bracketed (readValue n) ']' (_ ++ c :: r)) = _
  rw [h_br, Option.map_none]

/-- **An array is refused** at an element behind a comma that is. -/
theorem refused_arr_item (es : List Element) (hes : es ≠ [])
    (h : ∀ e ∈ es, Denotes e.text e.value) {t : List Char} (ht : Refused t) (h_noWs : NoWs t)
    (hne : t ≠ []) : Refused ('[' :: (joinComma (es.map Padded.chars) ++ ',' :: t)) := by
  intro n hn r
  obtain ⟨n, rfl⟩ : ∃ m, n = m + 1 := ⟨n - 1, by omega⟩
  simp only [List.length_cons, List.length_append] at hn
  have h_read : ∀ e ∈ es, e.ReadBy (readValue n) := by
    intro e he
    have h_len := length_text_le_joinComma he
    exact (h e he).readBy (readValue_append (h e he) n (by omega))
  have h_stuck : readValue n (skipWs (t ++ r)) = none := by
    rw [skipWs_of_noWs (h_noWs.append hne)]
    exact ht n (by omega) r
  have h_comma : IsDelim ',' := Or.inl rfl
  have h_br := bracketed_stuck (by decide : ']' ≠ ',') (h_comma.stops (t ++ r)) (h_comma.noWs _)
    (by decide) (fun _ => h_stuck) hes h_read fun e he => (h e he).head.2.2.1
  rw [List.cons_append, List.append_assoc, readValue_bracket]
  exact (congrArg _ h_br).trans (Option.map_none _)

/-- **An object is refused** at a member whose value is. -/
theorem refused_obj (ms : List Member) (hms : ms ≠ [])
    (h : ∀ m ∈ ms, Denotes m.elem.text m.elem.value) {body key t : List Char}
    (h_key : StrBody body key) (ht : Refused t) (h_noWs : NoWs t) (hne : t ≠ []) :
    Refused ('\x7b' :: (joinComma (ms.map fun m => m.padded.chars) ++
      ',' :: '"' :: (body ++ '"' :: ':' :: t))) := by
  intro n hn r
  obtain ⟨n, rfl⟩ : ∃ m, n = m + 1 := ⟨n - 1, by omega⟩
  simp only [List.length_cons, List.length_append] at hn
  have h_read : ∀ e ∈ ms.map Member.padded, e.ReadBy (readMember (readValue n)) := by
    intro e he
    obtain ⟨m, hm, rfl⟩ := List.mem_map.mp he
    have h_len := length_member_le_joinComma hm
    exact (h m hm).readBy_member (readValue_append (h m hm) n (by omega))
  have h_item : readMember (readValue n) ('"' :: (body ++ '"' :: ':' :: (t ++ r))) = none := by
    have h_str := readString_append h_key (':' :: (t ++ r))
    have h_skip : skipWs (t ++ r) = t ++ r := skipWs_of_noWs (h_noWs.append hne)
    have h_colon : skipWs (':' :: (t ++ r)) = ':' :: (t ++ r) :=
      skipWs_of_noWs (NoWs.cons (by decide))
    simp only [readMember, h_str, Option.bind_eq_bind, Option.bind_some, h_colon, h_skip,
      ht n (by omega) r, Option.bind_none]
  -- the member stands behind a comma, so the loop stops there
  have h_comma : IsDelim ',' := Or.inl rfl
  have h_stuck : readMember (readValue n) (skipWs ('"' :: (body ++ '"' :: ':' :: (t ++ r))))
      = none := by
    rw [skipWs_of_noWs (NoWs.cons (by decide))]
    exact h_item
  have h_br := bracketed_stuck (by decide : '\x7d' ≠ ',') (h_comma.stops _) (h_comma.noWs _)
    (by decide) (fun _ => h_stuck) (by simpa using hms) h_read (opens_members ms)
  rw [List.map_map] at h_br
  rw [List.cons_append, List.append_assoc, readValue_brace]
  simp only [List.cons_append, List.append_assoc]
  exact (congrArg _ h_br).trans (Option.map_none _)

/-! ### Sequences in groups -/

section

variable {ι : Type} (text : ι → List Char)

/-- Elements in groups, with commas inside the groups and nothing between them. -/
def groupsText (gs : List (List ι)) : List Char :=
  gs.flatMap fun g => joinComma (g.map text)

/-- The number of groups that have elements. -/
def nonemptyGroups (gs : List (List ι)) : Nat := gs.countP fun g => !g.isEmpty

@[simp] theorem nonemptyGroups_nil_cons (gs : List (List ι)) :
    nonemptyGroups ([] :: gs) = nonemptyGroups gs := by
  simp [nonemptyGroups]

@[simp] theorem nonemptyGroups_cons_cons (i : ι) (g : List ι) (gs : List (List ι)) :
    nonemptyGroups ((i :: g) :: gs) = nonemptyGroups gs + 1 := by
  simp [nonemptyGroups]

@[simp] theorem groupsText_nil_cons (gs : List (List ι)) :
    groupsText text ([] :: gs) = groupsText text gs := rfl

theorem groupsText_cons (g : List ι) (gs : List (List ι)) :
    groupsText text (g :: gs) = joinComma (g.map text) ++ groupsText text gs := rfl

theorem groupsText_of_empty {gs : List (List ι)} (h : nonemptyGroups gs = 0) :
    groupsText text gs = [] ∧ gs.flatten = [] := by
  induction gs with
  | nil => exact ⟨rfl, rfl⟩
  | cons g gs ih =>
    cases g with
    | nil => exact ih (by simpa using h)
    | cons i g => simp at h

/-- With at most one group that has elements, they are separated by commas. -/
theorem groupsText_eq {gs : List (List ι)} (h : nonemptyGroups gs ≤ 1) :
    groupsText text gs = joinComma (gs.flatten.map text) := by
  induction gs with
  | nil => rfl
  | cons g gs ih =>
    cases g with
    | nil => exact ih (by simpa using h)
    | cons i g =>
      have h_rest := groupsText_of_empty text (by simpa using h : nonemptyGroups gs = 0)
      calc groupsText text ((i :: g) :: gs)
          = joinComma ((i :: g).map text) ++ groupsText text gs := groupsText_cons text _ gs
        _ = joinComma ((i :: g).map text) := by rw [h_rest.1, List.append_nil]
        _ = joinComma (((i :: g) :: gs).flatten.map text) := by
          rw [List.flatten_cons, h_rest.2, List.append_nil]

/-- A text in groups starts with an element. -/
theorem exists_first {gs : List (List ι)} (h : 0 < nonemptyGroups gs) :
    ∃ i u, groupsText text gs = text i ++ u := by
  induction gs with
  | nil => simp [nonemptyGroups] at h
  | cons g gs ih =>
    cases g with
    | nil => exact ih (by simpa using h)
    | cons i g =>
      refine ⟨i, commaTexts (g.map text) ++ groupsText text gs, ?_⟩
      rw [groupsText_cons, List.map_cons, joinComma_cons_eq, List.append_assoc]

/-- With two groups that have elements, one element follows another without a comma. -/
theorem exists_adjacent {gs : List (List ι)} (h : 1 < nonemptyGroups gs) :
    ∃ g : List ι, g ≠ [] ∧ ∃ i u, groupsText text gs = joinComma (g.map text) ++ (text i ++ u) := by
  induction gs with
  | nil => simp [nonemptyGroups] at h
  | cons g gs ih =>
    cases g with
    | nil => exact ih (by simpa using h)
    | cons i g =>
      obtain ⟨j, u, h_rest⟩ := exists_first text (by simpa using h : 0 < nonemptyGroups gs)
      exact ⟨i :: g, by simp, j, u, by rw [groupsText_cons, h_rest]⟩

variable {text} {value : ι → Value} (h_denotes : ∀ i, Denotes (text i) (value i))

include h_denotes

/-- An array in groups is an array as long as at most one group has elements. -/
theorem denotes_groups {gs : List (List ι)} (h : nonemptyGroups gs ≤ 1) :
    Denotes ('[' :: (groupsText text gs ++ [']'])) (.arr (gs.flatten.map value)) := by
  rw [groupsText_eq text h]
  exact denotes_arr gs.flatten text value fun i _ => h_denotes i

/-- An array of objects in groups is refused as soon as two groups have elements. -/
theorem refused_groups (h_object : ∀ i, ∃ u, text i = '\x7b' :: u) {gs : List (List ι)}
    (h : 1 < nonemptyGroups gs) : ∃ t u, Refused ('[' :: t) ∧ groupsText text gs = t ++ u := by
  obtain ⟨g, hne, i, u, h_text⟩ := exists_adjacent text h
  obtain ⟨v, hv⟩ := h_object i
  have h_refused := refused_arr (g.map fun i => Padded.bare (text i) (value i))
    (by simpa using hne) (by simpa using fun i _ => h_denotes i) misplaced_brace
  have h_chars : (g.map fun i => Padded.bare (text i) (value i)).map Padded.chars
      = g.map text := by
    simp [Padded.chars, Function.comp_def]
  rw [h_chars] at h_refused
  refine ⟨_, v ++ u, h_refused, ?_⟩
  rw [h_text, hv]
  simp

end

end Json
