import AirQuality.Framework.JsonGrammar
import AirQuality.Framework.Printf

/-!
# JSON that a formatter writes

The pieces of JSON text that `snprintf` produces, with the values they denote: decimal numerals
(`denotes_decimalInt`), strings of characters that need no escape (`denotes_plain`), and objects
and arrays written without whitespace (`denotes_obj`, `denotes_arr`). An array may also be written
piece by piece: a first value, and behind it texts that are `Elements`.

`Entry` is an object member as such code writes it, `"key":text`, where `text` denotes `value`.
-/

namespace Json

open Printf

/-! ### Numerals -/

/-- A numeral without leading zero: the first digit of a positive number is not zero. -/
theorem decimal_head_ne_zero {n : Nat} (hn : 0 < n) : (decimal n).head? ≠ some '0' := by
  have h_digit : ∀ d < 10, 0 < d → d.digitChar ≠ '0' := by decide
  unfold decimal
  induction n using Nat.strongRecOn with
  | _ n ih =>
    by_cases h : n < 10
    · rw [Nat.toDigits_of_lt_base h]
      exact fun he => h_digit n h hn (Option.some.inj he)
    · -- the leading digits are those of `n / 10`
      rw [Nat.toDigits_of_base_le (by decide) (by omega), List.head?_append]
      have h_ih := ih (n / 10) (by omega) (by omega)
      cases h_head : (Nat.toDigits 10 (n / 10)).head? with
      | none => exact absurd (List.head?_eq_none_iff.mp h_head) Nat.toDigits_ne_nil
      | some c =>
        rw [h_head] at h_ih
        exact h_ih

theorem intPart_decimal (n : Nat) : IntPart (decimal n) where
  ne_nil := decimal_ne_nil n
  all := fun _ hc => Nat.isDigit_of_mem_toDigits (by decide) (by decide) hc
  noLeadingZero := by
    intro h
    rcases Nat.eq_zero_or_pos n with rfl | hn
    · rfl
    · exact absurd h (decimal_head_ne_zero hn)

theorem ofDigitChars_decimal (n : Nat) : Nat.ofDigitChars 10 (decimal n) 0 = n :=
  Nat.ofDigitChars_ten_toDigits

/-- A decimal numeral denotes its number. -/
theorem denotes_decimal (n : Nat) : Denotes (decimal n) (.int n) := by
  have h := Denotes.number Bool.false (intPart_decimal n) Frac.absent Exponent.absent
  have h_val : numberVal Bool.false (decimal n) [] [] = .int n := by
    simp [numberVal, signedVal, ofDigitChars_decimal]
  rw [h_val] at h
  simpa [signText] using h

theorem denotes_decimalInt (z : Int) : Denotes (decimalInt z) (.int z) := by
  cases z with
  | ofNat n => exact denotes_decimal n
  | negSucc n =>
    have h := Denotes.number Bool.true (intPart_decimal (n + 1)) Frac.absent Exponent.absent
    have h_val : numberVal Bool.true (decimal (n + 1)) [] [] = .int (Int.negSucc n) := by
      simp only [numberVal, signedVal, ofDigitChars_decimal, and_self, if_true]
      rfl
    rw [h_val] at h
    simpa [signText, decimalInt] using h

/-! ### Strings -/

theorem strBody_plain {s : List Char} (h : Plain s) : StrBody s s := by
  induction s with
  | nil => exact StrBody.nil
  | cons c s ih =>
    exact StrBody.cons (StrItem.plain (h c (by simp)))
      (ih fun x hx => h x (List.mem_cons_of_mem _ hx))

/-- A string of characters that need no escape denotes itself. -/
theorem denotes_plain {s : List Char} (h : Plain s) : Denotes ('"' :: (s ++ ['"'])) (.str s) :=
  Denotes.str (strBody_plain h)

/-! ### Arrays and objects without whitespace -/

/-- The array of the values that the texts `ts` denote, one for one. -/
theorem denotes_arr {ι : Type} (is : List ι) (text : ι → List Char) (value : ι → Value)
    (h : ∀ i ∈ is, Denotes (text i) (value i)) :
    Denotes ('[' :: (joinComma (is.map text) ++ [']'])) (.arr (is.map value)) := by
  by_cases hne : is = []
  · subst hne
    exact Denotes.arrEmpty Ws.nil
  · let es : List Element := is.map fun i => Padded.bare (text i) (value i)
    have h_ne : es ≠ [] := by simpa [es] using hne
    have h_arr := Denotes.arr h_ne (by simpa [es] using h)
    change Denotes ('[' :: (joinComma ((is.map fun i => Padded.bare (text i) (value i)).map
      Padded.chars) ++ [']'])) _ at h_arr
    rw [show es.map Padded.value = is.map value by simp [es, Padded.bare], List.map_map] at h_arr
    have h_chars : (Padded.chars ∘ fun i => Padded.bare (text i) (value i)) = text := by
      funext i
      simp [Padded.chars]
    rwa [h_chars] at h_arr

/-- `Elements ts vs`: the text `ts` is made of elements, each behind a comma, that denote `vs`. It
stands behind a first value of an array. -/
inductive Elements : List Char → List Value → Prop where
  | nil : Elements [] []
  | cons {t ts : List Char} {v : Value} {vs : List Value} (h : Denotes t v)
      (h_rest : Elements ts vs) : Elements (',' :: (t ++ ts)) (v :: vs)

theorem Elements.single {t : List Char} {v : Value} (h : Denotes t v) :
    Elements (',' :: t) [v] := by
  have h_cons := Elements.cons h Elements.nil
  rwa [List.append_nil] at h_cons

theorem Elements.append {ts us : List Char} {vs ws : List Value} (h : Elements ts vs)
    (h' : Elements us ws) : Elements (ts ++ us) (vs ++ ws) := by
  induction h with
  | nil => exact h'
  | cons ht _ ih =>
    rw [List.cons_append, List.append_assoc]
    exact Elements.cons ht ih

theorem Elements.flatMap {ι : Type} {is : List ι} {text : ι → List Char}
    {values : ι → List Value} (h : ∀ i ∈ is, Elements (text i) (values i)) :
    Elements (is.flatMap text) (is.flatMap values) := by
  induction is with
  | nil => exact Elements.nil
  | cons i is ih =>
    rw [List.flatMap_cons, List.flatMap_cons]
    exact (h i List.mem_cons_self).append (ih fun j hj => h j (List.mem_cons_of_mem i hj))

/-- Elements without whitespace, as elements of the grammar. -/
theorem Elements.padded {ts : List Char} {vs : List Value} (h : Elements ts vs) :
    ∃ es : List Element, commaTexts (es.map Padded.chars) = ts ∧ es.map Padded.value = vs ∧
      ∀ e ∈ es, Denotes e.text e.value := by
  induction h with
  | nil => exact ⟨[], rfl, rfl, by simp⟩
  | @cons t ts v vs ht _ ih =>
    obtain ⟨es, rfl, rfl, h_es⟩ := ih
    refine ⟨Padded.bare t v :: es, ?_, rfl, List.forall_mem_cons.mpr ⟨ht, h_es⟩⟩
    simp [commaTexts, Padded.chars]

/-- The array of a first value and of elements behind it. -/
theorem denotes_arr_elements {t ts : List Char} {v : Value} {vs : List Value} (ht : Denotes t v)
    (h : Elements ts vs) : Denotes ('[' :: (t ++ (ts ++ [']']))) (.arr (v :: vs)) := by
  obtain ⟨es, rfl, rfl, h_es⟩ := h.padded
  have h_arr := Denotes.arr (List.cons_ne_nil (Padded.bare t v) es)
    (List.forall_mem_cons.mpr ⟨ht, h_es⟩)
  have h_text : joinComma ((Padded.bare t v :: es).map Padded.chars)
      = t ++ commaTexts (es.map Padded.chars) := by
    rw [List.map_cons, joinComma_cons_eq]
    simp [Padded.chars]
  rw [h_text, List.append_assoc] at h_arr
  exact h_arr

/-- Texts that are a comma and a value each, behind a first value. -/
theorem wellFormed_arr_commas {t : List Char} {v : Value} (ht : Denotes t v)
    {rs : List (List Char)} (h : ∀ r ∈ rs, ∃ u w, r = ',' :: u ∧ Denotes u w) :
    WellFormed ('[' :: (t ++ (rs.flatten ++ [']']))) := by
  obtain ⟨vs, h_elements⟩ : ∃ vs, Elements rs.flatten vs := by
    induction rs with
    | nil => exact ⟨[], Elements.nil⟩
    | cons r rs ih =>
      obtain ⟨vs, h_rest⟩ := ih fun r' hr' => h r' (List.mem_cons_of_mem r hr')
      obtain ⟨u, w, rfl, hu⟩ := h r List.mem_cons_self
      exact ⟨[w] ++ vs, (Elements.single hu).append h_rest⟩
  exact ⟨_, (denotes_arr_elements ht h_elements).text⟩

/-- A member of an object, written `"key":text` between the blanks `pre` and `post`. -/
structure Entry where
  pre : List Char
  key : List Char
  text : List Char
  value : Value
  post : List Char
  pre_ws : Ws pre
  key_plain : Plain key
  post_ws : Ws post
  denotes : Denotes text value

/-- The characters of an entry. -/
def Entry.chars (e : Entry) : List Char :=
  e.pre ++ '"' :: (e.key ++ '"' :: ':' :: (e.text ++ e.post))

/-- An entry as a member of the grammar. -/
def Entry.member (e : Entry) : Member where
  pre := e.pre
  body := e.key
  key := e.key
  mid := []
  elem := ⟨[], e.text, e.post, e.value, Ws.nil, e.post_ws⟩
  pre_ws := e.pre_ws
  mid_ws := Ws.nil
  key_body := strBody_plain e.key_plain

theorem Entry.member_chars (e : Entry) : e.member.padded.chars = e.chars := by
  simp [Padded.chars, Member.text, Entry.member, Entry.chars]

/-- The object of a nonempty list of entries. -/
theorem denotes_obj {es : List Entry} (hne : es ≠ []) :
    Denotes ('\x7b' :: (joinComma (es.map Entry.chars) ++ ['\x7d']))
      (.obj (es.map fun e => (e.key, e.value))) := by
  have h_ne : es.map Entry.member ≠ [] := by simpa using hne
  have h := Denotes.obj h_ne (by
    intro m hm
    obtain ⟨e, -, rfl⟩ := List.mem_map.mp hm
    exact e.denotes)
  rw [List.map_map, List.map_map] at h
  have h_chars : ((fun m : Member => m.padded.chars) ∘ Entry.member) = Entry.chars :=
    funext Entry.member_chars
  rw [h_chars] at h
  exact h

end Json
