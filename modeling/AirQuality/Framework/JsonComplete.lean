import AirQuality.Framework.JsonReader

/-!
# Completeness of the JSON reader

What the grammar derives, the reader reads (`loads_of_text`).

A number does not end by itself, so the statement about a value read in front of a rest asks that
the rest does not continue a number (`Stops`); after an element of an array this is always so. The
loop over the elements needs each element's own reader to be right in front of *any* such rest,
which is what `Reads` says. A derivation may take whitespace the reader has not yet looked at:
`Padded.ReadBy.step` accounts for it, once for arrays and objects together.
-/

namespace Json

/-! ### What may follow a value -/

/-- The rest of a text does not continue a number. -/
def Stops (r : List Char) : Prop :=
  ∀ c ∈ r.head?, c.isDigit = false ∧ c ≠ '.' ∧ c ≠ 'e' ∧ c ≠ 'E'

/-- The rest of a text does not start with whitespace. -/
def NoWs (r : List Char) : Prop := ∀ c ∈ r.head?, isWs c = false

/-- `p` reads the characters `t` as `a`, whatever follows, as long as it ends them. -/
def Reads {α : Type} (p : Reader α) (t : List Char) (a : α) : Prop :=
  ∀ r, Stops r → p (t ++ r) = some (a, r)

theorem Stops.nil : Stops [] := fun _ h => by simp at h

theorem Stops.cons {c : Char} {r : List Char} (hd : c.isDigit = false) (hp : c ≠ '.')
    (he : c ≠ 'e') (hE : c ≠ 'E') : Stops (c :: r) := by
  intro x hx
  obtain rfl : c = x := by simpa using hx
  exact ⟨hd, hp, he, hE⟩

theorem NoWs.cons {c : Char} {r : List Char} (h : isWs c = false) : NoWs (c :: r) := by
  intro x hx
  obtain rfl : c = x := by simpa using hx
  exact h

/-- Whitespace ends a number, so does what follows it. -/
theorem Stops.ws_append {w r : List Char} (hw : Ws w) (hr : Stops r) : Stops (w ++ r) := by
  cases w with
  | nil => exact hr
  | cons c w =>
    have hc : isWs c = true := hw c (by simp)
    simp only [isWs, Bool.or_eq_true, decide_eq_true_eq] at hc
    refine Stops.cons ?_ ?_ ?_ ?_ <;> rcases hc with ((rfl | rfl) | rfl) | rfl <;> decide

/-! ### Completeness: the scanners -/

theorem skipWs_append {w r : List Char} (hw : Ws w) (hr : NoWs r) : skipWs (w ++ r) = r := by
  unfold skipWs
  rw [List.dropWhile_append_of_pos hw]
  cases r with
  | nil => rfl
  | cons c r => rw [List.dropWhile_cons_of_neg (by simp [hr c rfl])]

theorem skipWs_of_noWs {r : List Char} (hr : NoWs r) : skipWs r = r :=
  skipWs_append (w := []) Ws.nil hr

theorem skipWs_ws {w : List Char} (hw : Ws w) : skipWs w = [] := by
  have h := skipWs_append (r := []) hw (fun _ h => by simp at h)
  rwa [List.append_nil] at h

/-- A run of digits is split off whole in front of a non-digit. -/
theorem spanDigits_append {ds r : List Char} (hd : ∀ c ∈ ds, c.isDigit = true)
    (hr : ∀ c ∈ r.head?, c.isDigit = false) : spanDigits (ds ++ r) = (ds, r) := by
  unfold spanDigits
  rw [List.takeWhile_append_of_pos hd, List.dropWhile_append_of_pos hd]
  cases r with
  | nil => simp
  | cons c r =>
    have hc : ¬ c.isDigit = true := by simp [hr c rfl]
    rw [List.takeWhile_cons_of_neg hc, List.dropWhile_cons_of_neg hc, List.append_nil]

theorem readInt_append {ds r : List Char} (h : IntPart ds)
    (hr : ∀ c ∈ r.head?, c.isDigit = false) : readInt (ds ++ r) = some (ds, r) := by
  cases ds with
  | nil => exact absurd rfl h.ne_nil
  | cons c ds =>
    rw [List.cons_append, readInt]
    by_cases hz : c = '0'
    · subst hz
      have hds := h.noLeadingZero rfl
      simp only [List.cons.injEq, true_and] at hds
      rw [if_pos rfl, hds, List.nil_append]
    · rw [if_neg hz, if_pos (h.all c (by simp)), ← List.cons_append,
        spanDigits_append h.all hr]

/-- A nonempty run of digits starts with a digit. -/
theorem Digits.exists_cons {ds : List Char} (h : Digits ds) :
    ∃ c r, ds = c :: r ∧ c.isDigit = true := by
  cases ds with
  | nil => exact absurd rfl h.ne_nil
  | cons c r => exact ⟨c, r, rfl, h.all c (by simp)⟩

theorem readFrac_append {fs r : List Char} (h : Frac fs) (hd : ∀ c ∈ r.head?, c.isDigit = false)
    (hp : ∀ c ∈ r.head?, c ≠ '.') : readFrac (fs ++ r) = (fs, r) := by
  cases h with
  | absent =>
    cases r with
    | nil => rfl
    | cons c r =>
      have hc : c ≠ '.' := hp c rfl
      unfold readFrac
      split
      · next he => exact absurd (List.cons.inj he).1 hc
      · rfl
  | @present ds h =>
    obtain ⟨c, ds', rfl, -⟩ := h.exists_cons
    rw [List.cons_append, readFrac, spanDigits_append h.all hd]

theorem readExpSign_append {sg r : List Char} (h : ExpSign sg)
    (hr : ∀ c ∈ r.head?, c.isDigit = true) : readExpSign (sg ++ r) = (sg, r) := by
  cases h with
  | absent =>
    rw [List.nil_append]
    unfold readExpSign
    split
    · exact absurd (hr '+' rfl) (by decide)
    · exact absurd (hr '-' rfl) (by decide)
    · rfl
  | plus => rfl
  | minus => rfl

theorem readExp_append {es r : List Char} (h : Exponent es) (hr : Stops r) :
    readExp (es ++ r) = (es, r) := by
  cases h with
  | absent =>
    cases r with
    | nil => rfl
    | cons c r =>
      -- what follows a number does not start an exponent
      obtain ⟨-, -, he, hE⟩ := hr c rfl
      rw [List.nil_append, readExp, if_neg (by simp [he, hE])]
  | @present e sg ds he hs h =>
    obtain ⟨c, ds', hds, hc⟩ := h.exists_cons
    have h_sign : readExpSign (sg ++ (ds ++ r)) = (sg, ds ++ r) := by
      refine readExpSign_append hs fun x hx => ?_
      obtain rfl : c = x := by simpa [hds] using hx
      exact hc
    rw [List.cons_append, readExp, if_pos he, List.append_assoc, h_sign,
      spanDigits_append h.all (fun x hx => (hr x hx).1)]
    subst hds
    rfl

theorem readSign_append (neg : Bool) {r : List Char} (hr : ∀ c ∈ r.head?, c ≠ '-') :
    readSign (signText neg ++ r) = (neg, r) := by
  cases neg with
  | true => rfl
  | false =>
    change readSign r = _
    unfold readSign
    split
    · exact absurd rfl (hr '-' rfl)
    · rfl

theorem Frac.head_not_digit {fs r : List Char} (h : Frac fs)
    (hr : ∀ c ∈ r.head?, c.isDigit = false) : ∀ c ∈ (fs ++ r).head?, c.isDigit = false := by
  cases h with
  | absent => exact hr
  | present h =>
    intro c hc
    obtain rfl : '.' = c := by simpa using hc
    decide

theorem Exponent.head_stops {es r : List Char} (h : Exponent es) (hr : Stops r) :
    ∀ c ∈ (es ++ r).head?, c.isDigit = false ∧ c ≠ '.' := by
  cases h with
  | absent => exact fun c hc => ⟨(hr c hc).1, (hr c hc).2.1⟩
  | @present e sg ds he hs h =>
    intro c hc
    obtain rfl : e = c := by simpa using hc
    rcases he with rfl | rfl <;> decide

theorem readNumber_append (neg : Bool) {ds fs es r : List Char} (hi : IntPart ds) (hf : Frac fs)
    (he : Exponent es) (hr : Stops r) :
    readNumber (signText neg ++ ds ++ fs ++ es ++ r) = some (numberVal neg ds fs es, r) := by
  have h_exp := he.head_stops hr
  have h_sign : readSign (signText neg ++ (ds ++ (fs ++ (es ++ r)))) =
      (neg, ds ++ (fs ++ (es ++ r))) := by
    refine readSign_append neg fun c hc => ?_
    obtain ⟨d, ds', rfl, hd⟩ := hi.toDigits.exists_cons
    obtain rfl : d = c := by simpa using hc
    rintro rfl
    exact absurd hd (by decide)
  have h_int : readInt (ds ++ (fs ++ (es ++ r))) = some (ds, fs ++ (es ++ r)) :=
    readInt_append hi (hf.head_not_digit fun c hc => (h_exp c hc).1)
  have h_frac : readFrac (fs ++ (es ++ r)) = (fs, es ++ r) :=
    readFrac_append hf (fun c hc => (h_exp c hc).1) (fun c hc => (h_exp c hc).2)
  simp only [List.append_assoc, readNumber, h_sign, h_int, h_frac, readExp_append he hr,
    Option.bind_eq_bind, Option.bind_some, Option.pure_def]

/-! ### Completeness: strings -/

theorem readHex4_append {a b c d : Char} {u : Nat} (h : hex4 a b c d = some u) (r : List Char) :
    readHex4 (a :: b :: c :: d :: r) = some (u, r) := by
  simp [readHex4, h]

/-- The low half of a pair is read for any way `f` of combining it with the high half: with
`pairVal` in place of `f` the code point would be there to be computed. -/
theorem readPair_append {f : Nat → Option Char} {a b c d x : Char} {lo : Nat}
    (h : hex4 a b c d = some lo) (hlo : isLowSurrogate lo = true) (hx : f lo = some x)
    (r : List Char) :
    readPair f ('\\' :: 'u' :: a :: b :: c :: d :: r) = some (x, r) := by
  simp [readPair, readLow, readHex4_append h, Option.filter, hlo, hx]

theorem escape_ne_u {e c : Char} (h : escape e = some c) : e ≠ 'u' := by
  rintro rfl
  have hu : escape 'u' = none := by decide
  rw [hu] at h
  cases h

theorem readItem_append {t : List Char} {c : Char} (h : StrItem t c) (r : List Char) :
    readItem (t ++ r) = some (c, r) := by
  cases h with
  | plain h =>
    -- a plain character is no backslash, so only the last case of the reader is left
    have hb : c ≠ '\\' := by
      rintro rfl
      exact absurd h (by decide)
    change readItem (c :: r) = _
    unfold readItem
    split
    · next he => cases he
    · next he => exact absurd (List.cons.inj he).1 hb
    · next he => exact absurd (List.cons.inj he).1 hb
    · next he =>
      obtain ⟨rfl, rfl⟩ := List.cons.inj he
      rw [if_pos h]
  | @escaped e c h =>
    -- a short escape is none with four digits
    have hu : e ≠ 'u' := escape_ne_u h
    change readItem ('\\' :: e :: r) = _
    unfold readItem
    split
    · next he => cases he
    · next he => exact absurd (List.cons.inj (List.cons.inj he).2).1 hu
    · next he =>
      obtain ⟨rfl, rfl⟩ := List.cons.inj (List.cons.inj he).2
      rw [h, Option.map_some]
    · next hne he =>
      obtain ⟨rfl, rfl⟩ := List.cons.inj he
      exact absurd rfl (hne e r rfl)
  | unicode hu hn hx =>
    change readUnicode (_ :: _ :: _ :: _ :: r) = _
    simp [readUnicode, readHex4_append hu, hn, hx]
  | pair hu hl hhi hlo hx =>
    have h_low := readPair_append (f := fun lo => unicodeChar (pairVal _ lo)) hl hlo hx r
    change readUnicode (_ :: _ :: _ :: _ :: '\\' :: 'u' :: _ :: _ :: _ :: _ :: r) = _
    unfold readUnicode
    rw [readHex4_append hu]
    simp only [Option.bind_eq_bind, Option.bind_some, hhi, if_true]
    exact h_low

/-- No item of a string body is empty or starts with a quote. -/
theorem StrItem.exists_cons {t : List Char} {c : Char} (h : StrItem t c) :
    ∃ x u, t = x :: u ∧ x ≠ '"' := by
  cases h with
  | plain h =>
    refine ⟨_, _, rfl, ?_⟩
    rintro rfl
    exact absurd h (by decide)
  | escaped h => exact ⟨_, _, rfl, by decide⟩
  | unicode hu hn hx => exact ⟨_, _, rfl, by decide⟩
  | pair hu hl hhi hlo hx => exact ⟨_, _, rfl, by decide⟩

theorem readBody_append {body s : List Char} (h : StrBody body s) (r : List Char) :
    ∀ n, body.length < n → readBody n (body ++ '"' :: r) = some (s, r) := by
  induction h with
  | nil =>
    intro n hn
    obtain ⟨n, rfl⟩ : ∃ m, n = m + 1 := ⟨n - 1, by simp at hn; omega⟩
    rw [List.nil_append, readBody, if_pos rfl]
  | @cons t body s c h hb ih =>
    intro n hn
    obtain ⟨x, u, rfl, hx⟩ := h.exists_cons
    obtain ⟨n, rfl⟩ : ∃ m, n = m + 1 := ⟨n - 1, by simp at hn; omega⟩
    have h_item := readItem_append h (body ++ '"' :: r)
    have h_rest := ih n (by simp at hn; omega)
    rw [List.cons_append] at h_item
    rw [List.append_assoc, List.cons_append, readBody, if_neg hx, h_item]
    simp only [Option.bind_eq_bind, Option.bind_some, h_rest, Option.pure_def]

theorem readString_append {body s : List Char} (h : StrBody body s) (r : List Char) :
    readString ('"' :: (body ++ '"' :: r)) = some (s, r) := by
  rw [readString]
  exact readBody_append h r _ (by simp only [List.length_append, List.length_cons]; omega)

/-! ### Completeness: sequences -/

/-- A padded value whose own text `p` reads, and whose text starts with a non-blank. -/
structure Padded.ReadBy {α : Type} (p : Reader α) (e : Padded α) : Prop where
  reads : Reads p e.text e.value
  ne_nil : e.text ≠ []
  noWs : NoWs e.text

theorem NoWs.append {t r : List Char} (ht : NoWs t) (hne : t ≠ []) : NoWs (t ++ r) := by
  cases t with
  | nil => exact absurd rfl hne
  | cons c t => exact NoWs.cons (ht c rfl)

/-- The two characters that can follow an element: a comma, or the closing bracket. -/
def IsDelim (c : Char) : Prop := c = ',' ∨ c = ']' ∨ c = '\x7d'

theorem IsDelim.stops {c : Char} (h : IsDelim c) (r : List Char) : Stops (c :: r) := by
  rcases h with rfl | rfl | rfl <;> exact Stops.cons (by decide) (by decide) (by decide) (by decide)

theorem IsDelim.noWs {c : Char} (h : IsDelim c) (r : List Char) : NoWs (c :: r) := by
  rcases h with rfl | rfl | rfl <;> exact NoWs.cons (by decide)

/-- Reading one padded value in front of a rest that ends it. -/
theorem Padded.ReadBy.step {α : Type} {p : Reader α} {e : Padded α} (h : e.ReadBy p)
    {u : List Char} (hs : Stops u) (hw : NoWs u) :
    ∃ r', p (skipWs (e.chars ++ u)) = some (e.value, r') ∧ skipWs r' = u := by
  refine ⟨e.post ++ u, ?_, skipWs_append e.post_ws hw⟩
  unfold Padded.chars
  rw [List.append_assoc, List.append_assoc, skipWs_append e.pre_ws (h.noWs.append h.ne_nil)]
  exact h.reads _ (Stops.ws_append e.post_ws hs)

theorem joinComma_cons {t : List Char} {ts : List (List Char)} (h : ts ≠ []) :
    joinComma (t :: ts) = t ++ ',' :: joinComma ts := by
  cases ts with
  | nil => exact absurd rfl h
  | cons u us => rfl

theorem length_le_joinComma (ts : List (List Char)) : ts.length ≤ (joinComma ts).length + 1 := by
  induction ts with
  | nil => simp
  | cons t ts ih =>
    by_cases h : ts = []
    · subst h; simp
    · rw [joinComma_cons h]
      simp only [List.length_cons, List.length_append]
      omega

theorem length_le_of_mem_joinComma {t : List Char} {ts : List (List Char)} (h : t ∈ ts) :
    t.length ≤ (joinComma ts).length := by
  induction ts with
  | nil => simp at h
  | cons u us ih =>
    by_cases hus : us = []
    · subst hus
      obtain rfl : t = u := by simpa using h
      exact Nat.le_refl _
    · rw [joinComma_cons hus]
      simp only [List.length_append, List.length_cons]
      rcases List.mem_cons.mp h with rfl | h
      · omega
      · have := ih h
        omega

/-- **Completeness of the loop**: a comma-separated sequence of values that `p` reads, closed by a
bracket, is read by `items p`. -/
theorem items_append {α : Type} {p : Reader α} {close : Char} (hc : IsDelim close)
    (hne : close ≠ ',') (r : List Char) :
    ∀ (es : List (Padded α)), es ≠ [] → (∀ e ∈ es, e.ReadBy p) → ∀ n, es.length ≤ n →
      items p close n (joinComma (es.map Padded.chars) ++ close :: r)
        = some (es.map Padded.value, r) := by
  intro es
  induction es with
  | nil => exact fun h => absurd rfl h
  | cons e es ih =>
    intro _ h n hn
    obtain ⟨n, rfl⟩ : ∃ m, n = m + 1 := ⟨n - 1, by simp at hn; omega⟩
    by_cases hes : es = []
    · -- the last item, in front of the bracket
      subst hes
      obtain ⟨r', h_read, h_skip⟩ := (h e (by simp)).step (hc.stops r) (hc.noWs r)
      change items p close (n + 1) (e.chars ++ close :: r) = _
      simp [items, h_read, h_skip]
    · -- an item in front of a comma
      have h_comma : IsDelim ',' := Or.inl rfl
      obtain ⟨r', h_read, h_skip⟩ := (h e (by simp)).step
        (h_comma.stops (joinComma (es.map Padded.chars) ++ close :: r)) (h_comma.noWs _)
      have h_rest := ih hes (fun x hx => h x (List.mem_cons_of_mem _ hx)) n
        (by simp at hn; omega)
      rw [List.map_cons, joinComma_cons (by simpa using hes), List.append_assoc, List.cons_append]
      simp [items, h_read, h_skip, Ne.symm hne, h_rest]

theorem bracketed_empty {α : Type} (p : Reader α) {close : Char} (hc : IsDelim close)
    {w : List Char} (hw : Ws w) (r : List Char) :
    bracketed p close (w ++ close :: r) = some ([], r) := by
  unfold bracketed
  rw [skipWs_append hw (hc.noWs r)]
  exact if_pos rfl

/-- A sequence that is not empty does not start with its closing bracket. -/
def Opens (close : Char) (t : List Char) : Prop := ∀ c ∈ t.head?, c ≠ close

/-- A sequence of readable items starts with an item, behind whitespace. -/
theorem skipWs_joinComma {α : Type} {p : Reader α} {close : Char} {es : List (Padded α)}
    (hes : es ≠ []) (h : ∀ e ∈ es, e.ReadBy p) (h_open : ∀ e ∈ es, Opens close e.text)
    (r : List Char) :
    ∃ c u, skipWs (joinComma (es.map Padded.chars) ++ r) = c :: u ∧ c ≠ close := by
  obtain ⟨e, es', rfl⟩ := List.exists_cons_of_ne_nil hes
  obtain ⟨c, t, ht⟩ := List.exists_cons_of_ne_nil (h e (by simp)).ne_nil
  have h_text : joinComma ((e :: es').map Padded.chars) ++ r
      = e.pre ++ c :: (t ++ (e.post ++ (commaTexts (es'.map Padded.chars) ++ r))) := by
    rw [List.map_cons, joinComma_cons_eq, Padded.chars, ht]
    simp only [List.append_assoc, List.cons_append]
  refine ⟨c, t ++ (e.post ++ (commaTexts (es'.map Padded.chars) ++ r)), ?_,
    h_open e (by simp) c (by simp [ht])⟩
  rw [h_text]
  refine skipWs_append e.pre_ws (NoWs.cons ?_)
  exact (h e (by simp)).noWs c (by simp [ht])

theorem bracketed_append {α : Type} {p : Reader α} {close : Char} (hc : IsDelim close)
    (hne : close ≠ ',') {es : List (Padded α)} (hes : es ≠ []) (h : ∀ e ∈ es, e.ReadBy p)
    (h_open : ∀ e ∈ es, Opens close e.text) (r : List Char) :
    bracketed p close (joinComma (es.map Padded.chars) ++ close :: r)
      = some (es.map Padded.value, r) := by
  obtain ⟨c, u, h_skip, h_ne⟩ := skipWs_joinComma hes h h_open (close :: r)
  have h_len : es.length ≤ (joinComma (es.map Padded.chars) ++ close :: r).length + 1 := by
    have h_join := length_le_joinComma (es.map Padded.chars)
    rw [List.length_map] at h_join
    simp only [List.length_append, List.length_cons] at h_join ⊢
    omega
  unfold bracketed
  rw [h_skip]
  simp only [if_neg h_ne]
  exact items_append hc hne r _ hes h _ h_len

/-! ### Completeness: values -/

theorem ne_of_isDigit {c x : Char} (hc : c.isDigit = true) (hx : x.isDigit = false) : c ≠ x := by
  rintro rfl
  rw [hc] at hx
  cases hx

theorem isWs_of_isDigit {c : Char} (hc : c.isDigit = true) : isWs c = false := by
  unfold isWs
  simp only [ne_of_isDigit hc (by decide : ' '.isDigit = false),
    ne_of_isDigit hc (by decide : '\t'.isDigit = false),
    ne_of_isDigit hc (by decide : '\n'.isDigit = false),
    ne_of_isDigit hc (by decide : '\r'.isDigit = false), decide_false, Bool.or_self]

/-- A text that starts with neither a blank nor a closing bracket. -/
theorem head_of_cons (c : Char) (r : List Char) (hw : isWs c = false) (hb : c ≠ ']')
    (hc : c ≠ '\x7d') :
    (c :: r) ≠ [] ∧ NoWs (c :: r) ∧ Opens ']' (c :: r) ∧ Opens '\x7d' (c :: r) := by
  refine ⟨by simp, NoWs.cons hw, fun x hx => ?_, fun x hx => ?_⟩ <;>
    obtain rfl : c = x := by simpa using hx
  · exact hb
  · exact hc

/-- The first character of a value: no blank, no delimiter. -/
theorem Denotes.head {t : List Char} {v : Value} (h : Denotes t v) :
    t ≠ [] ∧ NoWs t ∧ Opens ']' t ∧ Opens '\x7d' t := by
  cases h with
  | null => exact head_of_cons _ _ (by decide) (by decide) (by decide)
  | true => exact head_of_cons _ _ (by decide) (by decide) (by decide)
  | false => exact head_of_cons _ _ (by decide) (by decide) (by decide)
  | @number ds fs es neg hi hf he =>
    cases neg with
    | true => exact head_of_cons '-' _ (by decide) (by decide) (by decide)
    | false =>
      -- without a sign the number starts with a digit
      obtain ⟨c, r, rfl, hc⟩ := hi.toDigits.exists_cons
      exact head_of_cons c _ (isWs_of_isDigit hc) (ne_of_isDigit hc rfl) (ne_of_isDigit hc rfl)
  | str h => exact head_of_cons _ _ (by decide) (by decide) (by decide)
  | arrEmpty hw => exact head_of_cons _ _ (by decide) (by decide) (by decide)
  | arr hne h => exact head_of_cons _ _ (by decide) (by decide) (by decide)
  | objEmpty hw => exact head_of_cons _ _ (by decide) (by decide) (by decide)
  | obj hne h => exact head_of_cons _ _ (by decide) (by decide) (by decide)

/-- A number is read as such: its first character is a minus sign or a digit. -/
theorem readValue_number (n : Nat) {c : Char} {r : List Char}
    (hc : c = '-' ∨ c.isDigit = true) : readValue (n + 1) (c :: r) = readNumber (c :: r) := by
  have hne : ∀ x : Char, '-' ≠ x → x.isDigit = false → c ≠ x := by
    intro x hx hd
    rcases hc with rfl | hc
    · exact hx
    · exact ne_of_isDigit hc hd
  rw [readValue, if_neg (hne _ (by decide) rfl), if_neg (hne _ (by decide) rfl),
    if_neg (hne _ (by decide) rfl), if_neg (hne _ (by decide) rfl),
    if_neg (hne _ (by decide) rfl), if_neg (hne _ (by decide) rfl)]

theorem readValue_quote (n : Nat) (r : List Char) : readValue (n + 1) ('"' :: r) =
    (readString ('"' :: r)).map fun p => (.str p.1, p.2) := by
  rw [readValue, if_pos rfl]

theorem readValue_bracket (n : Nat) (r : List Char) : readValue (n + 1) ('[' :: r) =
    (bracketed (readValue n) ']' r).map fun p => (.arr p.1, p.2) := by
  rw [readValue, if_neg (by decide), if_pos rfl]

theorem readValue_brace (n : Nat) (r : List Char) : readValue (n + 1) ('\x7b' :: r) =
    (bracketed (readMember (readValue n)) '\x7d' r).map fun p => (.obj p.1, p.2) := by
  rw [readValue, if_neg (by decide), if_neg (by decide), if_pos rfl]

theorem readMember_append {p : Reader Value} {m : Member} (h : Reads p m.elem.text m.elem.value)
    (hw : NoWs m.elem.text) (hne : m.elem.text ≠ []) : Reads (readMember p) m.text
      (m.key, m.elem.value) := by
  intro r hr
  have h_key := readString_append m.key_body (m.mid ++ ':' :: (m.elem.pre ++ (m.elem.text ++ r)))
  have h_mid : skipWs (m.mid ++ ':' :: (m.elem.pre ++ (m.elem.text ++ r)))
      = ':' :: (m.elem.pre ++ (m.elem.text ++ r)) :=
    skipWs_append m.mid_ws (NoWs.cons (by decide))
  have h_pre : skipWs (m.elem.pre ++ (m.elem.text ++ r)) = m.elem.text ++ r :=
    skipWs_append m.elem.pre_ws (hw.append hne)
  have h_text : m.text ++ r
      = '"' :: (m.body ++ '"' :: (m.mid ++ ':' :: (m.elem.pre ++ (m.elem.text ++ r)))) := by
    simp [Member.text]
  rw [h_text]
  simp only [readMember, h_key, Option.bind_eq_bind, Option.bind_some, h_mid, h_pre, h r hr,
    Option.pure_def]

/-- An element is read by any reader of values that reads its own text. -/
theorem Denotes.readBy {e : Element} (h : Denotes e.text e.value) {p : Reader Value}
    (hp : Reads p e.text e.value) : e.ReadBy p :=
  ⟨hp, h.head.1, h.head.2.1⟩

/-- A member is read by the reader of members over such a reader. -/
theorem Denotes.readBy_member {m : Member} (h : Denotes m.elem.text m.elem.value)
    {p : Reader Value} (hp : Reads p m.elem.text m.elem.value) :
    m.padded.ReadBy (readMember p) :=
  ⟨readMember_append hp h.head.2.1 h.head.1, by simp [Member.text], NoWs.cons (by decide)⟩

theorem Member.opens (m : Member) : Opens '\x7d' m.text := by
  intro c hc
  obtain rfl : '"' = c := by simpa [Member.text] using hc
  decide

theorem opens_members (ms : List Member) : ∀ e ∈ ms.map Member.padded, Opens '\x7d' e.text := by
  intro e he
  obtain ⟨m, -, rfl⟩ := List.mem_map.mp he
  exact m.opens

/-- An element is no longer than the sequence it stands in. -/
theorem length_text_le_joinComma {e : Element} {es : List Element} (he : e ∈ es) :
    e.text.length ≤ (joinComma (es.map Padded.chars)).length := by
  have h_len := length_le_of_mem_joinComma (List.mem_map_of_mem (f := Padded.chars) he)
  have h_chars : e.text.length ≤ e.chars.length := by simp [Padded.chars]; omega
  omega

theorem length_member_le_joinComma {m : Member} {ms : List Member} (hm : m ∈ ms) :
    m.elem.text.length ≤ (joinComma (ms.map fun m => m.padded.chars)).length := by
  have h_len := length_le_of_mem_joinComma
    (List.mem_map_of_mem (f := fun m : Member => m.padded.chars) hm)
  have h_chars : m.elem.text.length ≤ m.padded.chars.length := by
    simp [Padded.chars, Member.text]
    omega
  omega

theorem reads_number (n : Nat) (neg : Bool) {ds fs es : List Char} (hi : IntPart ds)
    (hf : Frac fs) (he : Exponent es) :
    Reads (readValue (n + 1)) (signText neg ++ ds ++ fs ++ es) (numberVal neg ds fs es) := by
  intro r hr
  obtain ⟨c, u, hcu, hc⟩ : ∃ c u, signText neg ++ ds ++ fs ++ es ++ r = c :: u ∧
      (c = '-' ∨ c.isDigit = true) := by
    cases neg with
    | true => exact ⟨'-', _, rfl, Or.inl rfl⟩
    | false =>
      obtain ⟨c, ds', rfl, hc⟩ := hi.toDigits.exists_cons
      exact ⟨c, _, rfl, Or.inr hc⟩
  have h_num := readNumber_append neg hi hf he hr
  rw [hcu] at h_num ⊢
  rw [readValue_number n hc, h_num]

theorem reads_str (n : Nat) {body s : List Char} (h : StrBody body s) :
    Reads (readValue (n + 1)) ('"' :: (body ++ ['"'])) (.str s) := by
  intro r _
  have h_str := readString_append h r
  rw [List.cons_append, List.append_assoc, readValue_quote]
  change Option.map _ (readString ('"' :: (body ++ '"' :: r))) = _
  rw [h_str, Option.map_some]

/-- An array is what the reader of its elements makes of it. -/
theorem reads_arr (n : Nat) {t : List Char} {vs : List Value}
    (h : ∀ r, bracketed (readValue n) ']' (t ++ ']' :: r) = some (vs, r)) :
    Reads (readValue (n + 1)) ('[' :: (t ++ [']'])) (.arr vs) := by
  intro r _
  rw [List.cons_append, List.append_assoc, readValue_bracket]
  change Option.map _ (bracketed (readValue n) ']' (t ++ ']' :: r)) = _
  rw [h r, Option.map_some]

/-- And an object what the reader of its members makes of it. -/
theorem reads_obj (n : Nat) {t : List Char} {kvs : List (List Char × Value)}
    (h : ∀ r, bracketed (readMember (readValue n)) '\x7d' (t ++ '\x7d' :: r) = some (kvs, r)) :
    Reads (readValue (n + 1)) ('\x7b' :: (t ++ ['\x7d'])) (.obj kvs) := by
  intro r _
  rw [List.cons_append, List.append_assoc, readValue_brace]
  change Option.map _ (bracketed (readMember (readValue n)) '\x7d' (t ++ '\x7d' :: r)) = _
  rw [h r, Option.map_some]

/-- A value is read with one unit of fuel for each of its characters, and one more. -/
theorem readValue_succ_append {t : List Char} {v : Value} (h : Denotes t v) :
    ∀ n, t.length ≤ n → Reads (readValue (n + 1)) t v := by
  induction h with
  | null => exact fun n _ r _ => rfl
  | true => exact fun n _ r _ => rfl
  | false => exact fun n _ r _ => rfl
  | number neg hi hf he => exact fun n _ => reads_number n neg hi hf he
  | str h => exact fun n _ => reads_str n h
  | arrEmpty hw =>
    intro n _
    exact reads_arr n (bracketed_empty (readValue n) (Or.inr (Or.inl rfl)) hw)
  | @arr es hne h ih =>
    intro n hn
    simp only [List.length_cons, List.length_append] at hn
    -- the brackets leave fuel enough for the elements between them
    obtain ⟨n, rfl⟩ : ∃ m, n = m + 1 := ⟨n - 1, by omega⟩
    have h_read : ∀ e ∈ es, e.ReadBy (readValue (n + 1)) := by
      intro e he
      have h_len := length_text_le_joinComma he
      exact (h e he).readBy (ih e he n (by omega))
    exact reads_arr (n + 1) (bracketed_append (Or.inr (Or.inl rfl)) (by decide) hne h_read
      fun e he => (h e he).head.2.2.1)
  | objEmpty hw =>
    intro n _
    exact reads_obj n (bracketed_empty (readMember (readValue n)) (Or.inr (Or.inr rfl)) hw)
  | @obj ms hne h ih =>
    intro n hn
    simp only [List.length_cons, List.length_append] at hn
    obtain ⟨n, rfl⟩ : ∃ m, n = m + 1 := ⟨n - 1, by omega⟩
    have h_read : ∀ e ∈ ms.map Member.padded, e.ReadBy (readMember (readValue (n + 1))) := by
      intro e he
      obtain ⟨m, hm, rfl⟩ := List.mem_map.mp he
      have h_len := length_member_le_joinComma hm
      exact (h m hm).readBy_member (ih m hm n (by omega))
    apply reads_obj (n + 1)
    intro r
    have h_br := bracketed_append (Or.inr (Or.inr rfl) : IsDelim '\x7d') (by decide)
      (by simpa using hne) h_read (opens_members ms) r
    rwa [List.map_map, List.map_map] at h_br

/-- **Completeness of the reader**: with enough fuel, a value is read in front of any rest that
ends it. -/
theorem readValue_append {t : List Char} {v : Value} (h : Denotes t v) (n : Nat)
    (hn : t.length < n) : Reads (readValue n) t v := by
  obtain ⟨n, rfl⟩ : ∃ m, n = m + 1 := ⟨n - 1, by omega⟩
  exact readValue_succ_append h n (Nat.le_of_lt_succ hn)

/-- A well-formed text is read as the value it denotes. -/
theorem loads_of_text {t : List Char} {v : Value} (h : Text t v) : loads t = some v := by
  obtain ⟨w₁, u, w₂, hw₁, hw₂, hu, rfl⟩ := h
  have h_pre : skipWs (w₁ ++ (u ++ w₂)) = u ++ w₂ :=
    skipWs_append hw₁ (hu.head.2.1.append hu.head.1)
  have h_stop : Stops w₂ := by
    have h := Stops.ws_append hw₂ Stops.nil
    rwa [List.append_nil] at h
  have h_read := readValue_append hu ((w₁ ++ (u ++ w₂)).length + 1)
    (by simp only [List.length_append]; omega) w₂ h_stop
  rw [List.append_assoc]
  simp only [loads, h_pre, h_read, Option.bind_eq_bind, Option.bind_some, skipWs_ws hw₂, if_true,
    Option.pure_def]

end Json
