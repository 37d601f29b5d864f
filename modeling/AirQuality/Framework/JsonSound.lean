import Mathlib.Data.List.TakeWhile
import AirQuality.Framework.JsonComplete

/-!
# Soundness of the JSON reader

What the reader reads, the grammar derives. With completeness this makes `loads` exact
(`loads_iff`): a value is read from exactly the texts that denote it, and well-formedness can be
decided by reading (`wellFormed_iff`).

Every scanner is shown to return a prefix of its input that has the shape the grammar asks for.
`SoundFor p P` states this for a reader `p` and a relation `P` between characters and values, so
that the loop over elements (`items_sound`) serves arrays and objects alike.
-/

namespace Json

/-! ### Soundness: the scanners -/

theorem skipWs_split (cs : List Char) : ∃ w, Ws w ∧ cs = w ++ skipWs cs :=
  ⟨cs.takeWhile isWs, fun _ h => List.mem_takeWhile_imp h, List.takeWhile_append_dropWhile.symm⟩

theorem spanDigits_split (cs : List Char) :
    (∀ c ∈ (spanDigits cs).1, c.isDigit = true) ∧ cs = (spanDigits cs).1 ++ (spanDigits cs).2 :=
  ⟨fun _ h => List.mem_takeWhile_imp h, List.takeWhile_append_dropWhile.symm⟩

theorem readSign_split (cs : List Char) : cs = signText (readSign cs).1 ++ (readSign cs).2 := by
  unfold readSign
  split <;> rfl

theorem readInt_sound {cs ds r : List Char} (h : readInt cs = some (ds, r)) :
    IntPart ds ∧ cs = ds ++ r := by
  cases cs with
  | nil => cases h
  | cons c cs =>
    rw [readInt] at h
    split at h
    · -- a leading zero stands alone
      next hz =>
      obtain ⟨rfl, rfl⟩ := Prod.mk.inj (Option.some.inj h)
      subst hz
      exact ⟨⟨⟨by simp, by simp⟩, fun _ => rfl⟩, rfl⟩
    · next hz =>
      split at h
      · next hd =>
        have h_split := spanDigits_split (c :: cs)
        rw [Option.some.inj h] at h_split
        obtain ⟨u, hu⟩ : ∃ u, ds = c :: u := by
          refine ⟨cs.takeWhile Char.isDigit, ?_⟩
          have h_fst : (spanDigits (c :: cs)).1 = ds := congrArg Prod.fst (Option.some.inj h)
          rw [← h_fst]
          exact List.takeWhile_cons_of_pos hd
        refine ⟨⟨⟨by simp [hu], h_split.1⟩, fun hh => ?_⟩, h_split.2⟩
        rw [hu] at hh
        exact absurd (Option.some.inj hh) hz
      · cases h

theorem readFrac_sound {cs fs r : List Char} (h : readFrac cs = (fs, r)) :
    Frac fs ∧ cs = fs ++ r := by
  unfold readFrac at h
  split at h
  · next u =>
    have h_split := spanDigits_split u
    split at h
    · obtain ⟨rfl, rfl⟩ := Prod.mk.inj h
      exact ⟨Frac.absent, rfl⟩
    · next ds r' hne h_eq =>
      obtain ⟨rfl, rfl⟩ := Prod.mk.inj h
      rw [h_eq] at h_split
      exact ⟨Frac.present ⟨fun hnil => hne hnil, h_split.1⟩,
        by rw [List.cons_append, ← h_split.2]⟩
  · obtain ⟨rfl, rfl⟩ := Prod.mk.inj h
    exact ⟨Frac.absent, rfl⟩

theorem readExpSign_split (cs : List Char) :
    ExpSign (readExpSign cs).1 ∧ cs = (readExpSign cs).1 ++ (readExpSign cs).2 := by
  unfold readExpSign
  split
  · exact ⟨ExpSign.plus, rfl⟩
  · exact ⟨ExpSign.minus, rfl⟩
  · exact ⟨ExpSign.absent, rfl⟩

theorem readExp_sound {cs es r : List Char} (h : readExp cs = (es, r)) :
    Exponent es ∧ cs = es ++ r := by
  cases cs with
  | nil =>
    obtain ⟨rfl, rfl⟩ := Prod.mk.inj h
    exact ⟨Exponent.absent, rfl⟩
  | cons c cs =>
    rw [readExp] at h
    split at h
    · next he =>
      have h_sign := readExpSign_split cs
      have h_split := spanDigits_split (readExpSign cs).2
      split at h
      · -- an `e` without digits behind it is left where it is
        obtain ⟨rfl, rfl⟩ := Prod.mk.inj h
        exact ⟨Exponent.absent, rfl⟩
      · next ds r' hne h_eq =>
        obtain ⟨rfl, rfl⟩ := Prod.mk.inj h
        rw [h_eq] at h_split
        refine ⟨Exponent.present he h_sign.1 ⟨fun hnil => hne hnil, h_split.1⟩, ?_⟩
        rw [List.cons_append, List.append_assoc, ← h_split.2, ← h_sign.2]
    · obtain ⟨rfl, rfl⟩ := Prod.mk.inj h
      exact ⟨Exponent.absent, rfl⟩

theorem readNumber_sound {cs r : List Char} {v : Value} (h : readNumber cs = some (v, r)) :
    ∃ t, Denotes t v ∧ cs = t ++ r := by
  unfold readNumber at h
  simp only [Option.bind_eq_bind, Option.bind_eq_some_iff, Option.pure_def, Option.some.injEq,
    Prod.mk.injEq] at h
  obtain ⟨⟨ds, u⟩, h_int, rfl, rfl⟩ := h
  obtain ⟨hi, h_eq⟩ := readInt_sound h_int
  have hf : Frac (readFrac u).1 ∧ u = (readFrac u).1 ++ (readFrac u).2 := readFrac_sound rfl
  have he : Exponent (readExp (readFrac u).2).1 ∧ (readFrac u).2
      = (readExp (readFrac u).2).1 ++ (readExp (readFrac u).2).2 := readExp_sound rfl
  refine ⟨_, Denotes.number (readSign cs).1 hi hf.1 he.1, ?_⟩
  calc cs = signText (readSign cs).1 ++ (ds ++ ((readFrac u).1 ++ ((readExp (readFrac u).2).1
          ++ (readExp (readFrac u).2).2))) := by
            rw [← he.2, ← hf.2, ← h_eq]
            exact readSign_split cs
    _ = _ := by simp only [List.append_assoc]

/-! ### Soundness: strings -/

theorem readHex4_sound {cs r : List Char} {u : Nat} (h : readHex4 cs = some (u, r)) :
    ∃ a b c d, hex4 a b c d = some u ∧ cs = a :: b :: c :: d :: r := by
  unfold readHex4 at h
  split at h
  · next a b c d r' =>
    obtain ⟨u', hu, h_eq⟩ := Option.map_eq_some_iff.mp h
    obtain ⟨rfl, rfl⟩ := Prod.mk.inj h_eq
    exact ⟨a, b, c, d, hu, rfl⟩
  · cases h

theorem readLow_sound {cs r : List Char} {u : Nat} (h : readLow cs = some (u, r)) :
    ∃ a b c d, hex4 a b c d = some u ∧ isLowSurrogate u = true ∧
      cs = '\\' :: 'u' :: a :: b :: c :: d :: r := by
  unfold readLow at h
  split at h
  · next r' =>
    obtain ⟨h_hex, h_low⟩ := Option.filter_eq_some_iff.mp h
    obtain ⟨a, b, c, d, hu, rfl⟩ := readHex4_sound h_hex
    exact ⟨a, b, c, d, hu, h_low, rfl⟩
  · cases h

theorem readPair_sound {f : Nat → Option Char} {cs r : List Char} {x : Char}
    (h : readPair f cs = some (x, r)) :
    ∃ a b c d lo, hex4 a b c d = some lo ∧ isLowSurrogate lo = true ∧ f lo = some x ∧
      cs = '\\' :: 'u' :: a :: b :: c :: d :: r := by
  unfold readPair at h
  simp only [Option.bind_eq_bind, Option.bind_eq_some_iff, Option.pure_def, Option.some.injEq,
    Prod.mk.injEq] at h
  obtain ⟨⟨lo, r'⟩, h_low, y, hy, rfl, rfl⟩ := h
  obtain ⟨a, b, c, d, hu, hl, rfl⟩ := readLow_sound h_low
  exact ⟨a, b, c, d, lo, hu, hl, hy, rfl⟩

theorem readUnicode_sound {cs r : List Char} {x : Char} (h : readUnicode cs = some (x, r)) :
    ∃ t, StrItem ('\\' :: 'u' :: t) x ∧ cs = t ++ r := by
  unfold readUnicode at h
  simp only [Option.bind_eq_bind, Option.bind_eq_some_iff] at h
  obtain ⟨⟨u, r'⟩, h_hex, h⟩ := h
  obtain ⟨a, b, c, d, hu, rfl⟩ := readHex4_sound h_hex
  by_cases hhi : isHighSurrogate u = true
  · rw [if_pos hhi] at h
    obtain ⟨a', b', c', d', lo, hl, hlo, hx, rfl⟩ := readPair_sound h
    exact ⟨_, StrItem.pair hu hl hhi hlo hx, rfl⟩
  · rw [if_neg hhi] at h
    simp only [Option.bind_eq_some_iff, Option.pure_def, Option.some.injEq, Prod.mk.injEq] at h
    obtain ⟨y, hy, rfl, rfl⟩ := h
    exact ⟨_, StrItem.unicode hu (by simpa using hhi) hy, rfl⟩

theorem readItem_sound {cs r : List Char} {x : Char} (h : readItem cs = some (x, r)) :
    ∃ t, StrItem t x ∧ cs = t ++ r := by
  unfold readItem at h
  split at h
  · cases h
  · obtain ⟨t, ht, rfl⟩ := readUnicode_sound h
    exact ⟨_, ht, rfl⟩
  · next e r' hne =>
    obtain ⟨c, hc, h_eq⟩ := Option.map_eq_some_iff.mp h
    obtain ⟨rfl, rfl⟩ := Prod.mk.inj h_eq
    exact ⟨_, StrItem.escaped hc, rfl⟩
  · next c r' _ _ =>
    split at h
    · next hp =>
      obtain ⟨rfl, rfl⟩ := Prod.mk.inj (Option.some.inj h)
      exact ⟨_, StrItem.plain hp, rfl⟩
    · cases h

theorem readBody_sound : ∀ (n : Nat) {cs s r : List Char}, readBody n cs = some (s, r) →
    ∃ body, StrBody body s ∧ cs = body ++ '"' :: r := by
  intro n
  induction n with
  | zero => intro cs s r h; cases h
  | succ n ih =>
    intro cs s r h
    cases cs with
    | nil => cases h
    | cons c cs =>
      rw [readBody] at h
      split at h
      · next hq =>
        obtain ⟨rfl, rfl⟩ := Prod.mk.inj (Option.some.inj h)
        exact ⟨[], StrBody.nil, by rw [hq]; rfl⟩
      · simp only [Option.bind_eq_bind, Option.bind_eq_some_iff, Option.pure_def,
          Option.some.injEq, Prod.mk.injEq] at h
        obtain ⟨⟨x, u⟩, h_item, ⟨s', r'⟩, h_rest, rfl, rfl⟩ := h
        obtain ⟨t, ht, h_eq⟩ := readItem_sound h_item
        obtain ⟨body, hb, rfl⟩ := ih h_rest
        exact ⟨t ++ body, StrBody.cons ht hb, by rw [h_eq, List.append_assoc]⟩

theorem readString_sound {cs s r : List Char} (h : readString cs = some (s, r)) :
    ∃ body, StrBody body s ∧ cs = '"' :: (body ++ '"' :: r) := by
  unfold readString at h
  split at h
  · obtain ⟨body, hb, h_eq⟩ := readBody_sound _ h
    exact ⟨body, hb, by rw [h_eq]⟩
  · cases h

/-! ### Soundness: sequences -/

/-- What `p` reads stands in the relation `P` to the characters it took. -/
def SoundFor {α : Type} (p : Reader α) (P : List Char → α → Prop) : Prop :=
  ∀ {cs : List Char} {a : α} {r : List Char}, p cs = some (a, r) → ∃ t, P t a ∧ cs = t ++ r

/-- Reading one value between whitespace. -/
theorem SoundFor.padded {α : Type} {p : Reader α} {P : List Char → α → Prop} (hp : SoundFor p P)
    {cs : List Char} {a : α} {r : List Char} (h : p (skipWs cs) = some (a, r)) :
    ∃ e : Padded α, e.value = a ∧ P e.text e.value ∧ cs = e.chars ++ skipWs r := by
  obtain ⟨w₁, hw₁, h₁⟩ := skipWs_split cs
  obtain ⟨t, ht, h_eq⟩ := hp h
  obtain ⟨w₂, hw₂, h₂⟩ := skipWs_split r
  refine ⟨⟨w₁, t, w₂, a, hw₁, hw₂⟩, rfl, ht, ?_⟩
  unfold Padded.chars
  rw [List.append_assoc, List.append_assoc, ← h₂, ← h_eq, ← h₁]

theorem items_sound {α : Type} {p : Reader α} {P : List Char → α → Prop} (hp : SoundFor p P)
    {close : Char} : ∀ (n : Nat) {cs : List Char} {as : List α} {r : List Char},
      items p close n cs = some (as, r) → ∃ es : List (Padded α), es ≠ [] ∧
        es.map Padded.value = as ∧ (∀ e ∈ es, P e.text e.value) ∧
        cs = joinComma (es.map Padded.chars) ++ close :: r := by
  intro n
  induction n with
  | zero => intro cs as r h; cases h
  | succ n ih =>
    intro cs as r h
    rw [items] at h
    simp only [Option.bind_eq_bind, Option.bind_eq_some_iff] at h
    obtain ⟨⟨a, u⟩, h_read, h⟩ := h
    obtain ⟨e, rfl, he, h_cs⟩ := hp.padded h_read
    split at h
    · cases h
    · next c r' h_skip =>
      rw [h_skip] at h_cs
      split at h
      · -- the bracket behind the last item
        next hc =>
        obtain ⟨rfl, rfl⟩ := Prod.mk.inj (Option.some.inj h)
        subst hc
        refine ⟨[e], by simp, rfl, fun x hx => ?_, h_cs⟩
        obtain rfl : x = e := by simpa using hx
        exact he
      · split at h
        · -- a comma, and the items behind it
          next hc =>
          simp only [Option.bind_eq_some_iff, Option.pure_def, Option.some.injEq,
            Prod.mk.injEq] at h
          obtain ⟨⟨as', r''⟩, h_rest, rfl, rfl⟩ := h
          obtain ⟨es, hne, rfl, hes, rfl⟩ := ih h_rest
          refine ⟨e :: es, by simp, rfl, fun x hx => ?_, ?_⟩
          · exact (List.mem_cons.mp hx).elim (fun h => h ▸ he) (hes x)
          · rw [List.map_cons, joinComma_cons (by simpa using hne), h_cs, hc,
              List.append_assoc, List.cons_append]
        · cases h

theorem bracketed_sound {α : Type} {p : Reader α} {P : List Char → α → Prop} (hp : SoundFor p P)
    {close : Char} {cs : List Char} {as : List α} {r : List Char}
    (h : bracketed p close cs = some (as, r)) :
    (∃ w, Ws w ∧ as = [] ∧ cs = w ++ close :: r) ∨
      ∃ es : List (Padded α), es ≠ [] ∧ es.map Padded.value = as ∧
        (∀ e ∈ es, P e.text e.value) ∧ cs = joinComma (es.map Padded.chars) ++ close :: r := by
  unfold bracketed at h
  split at h
  · cases h
  · next c r' h_skip =>
    split at h
    · next hc =>
      obtain ⟨rfl, rfl⟩ := Prod.mk.inj (Option.some.inj h)
      obtain ⟨w, hw, h_cs⟩ := skipWs_split cs
      exact Or.inl ⟨w, hw, rfl, by rw [h_cs, h_skip, hc]⟩
    · exact Or.inr (items_sound hp _ h)

/-! ### Soundness: values -/

theorem readMember_sound {p : Reader Value} (hp : SoundFor p Denotes) :
    SoundFor (readMember p) fun t kv => ∃ m : Member, m.text = t ∧ m.key = kv.1 ∧
      m.elem.value = kv.2 ∧ m.pre = [] ∧ m.elem.post = [] ∧ Denotes m.elem.text m.elem.value := by
  intro cs kv r h
  unfold readMember at h
  simp only [Option.bind_eq_bind, Option.bind_eq_some_iff] at h
  obtain ⟨⟨k, u⟩, h_key, h⟩ := h
  obtain ⟨body, hb, rfl⟩ := readString_sound h_key
  split at h
  · next r' h_colon =>
    simp only [Option.bind_eq_some_iff, Option.pure_def, Option.some.injEq, Prod.mk.injEq] at h
    obtain ⟨⟨v, r''⟩, h_val, rfl, rfl⟩ := h
    obtain ⟨mid, h_mid, hu⟩ := skipWs_split u
    obtain ⟨pre, h_pre, hr'⟩ := skipWs_split r'
    obtain ⟨t, ht, h_eq⟩ := hp h_val
    -- the blanks around the member belong to the sequence it stands in
    let m : Member := ⟨[], body, k, mid, ⟨pre, t, [], v, h_pre, Ws.nil⟩, Ws.nil, h_mid, hb⟩
    refine ⟨m.text, ⟨m, rfl, rfl, rfl, rfl, rfl, ht⟩, ?_⟩
    rw [hu, h_colon, hr', h_eq]
    simp [m, Member.text]
  · cases h

theorem readLit_sound {name : List Char} {v : Value} (h : Denotes name v) :
    SoundFor (readLit name v) Denotes := by
  intro cs a r h_read
  unfold readLit at h_read
  split at h_read
  · next hpre =>
    obtain ⟨rfl, rfl⟩ := Prod.mk.inj (Option.some.inj h_read)
    obtain ⟨u, rfl⟩ := hpre
    exact ⟨name, h, by rw [List.drop_left]⟩
  · cases h_read

/-- The members behind a sequence of key-value pairs. -/
theorem exists_members {es : List (Padded (List Char × Value))}
    (h : ∀ e ∈ es, ∃ m : Member, m.text = e.text ∧ m.key = e.value.1 ∧
      m.elem.value = e.value.2 ∧ m.pre = [] ∧ m.elem.post = [] ∧
      Denotes m.elem.text m.elem.value) :
    ∃ ms : List Member, ms.map (fun m => m.padded.chars) = es.map Padded.chars ∧
      ms.map (fun m => m.padded.value) = es.map Padded.value ∧
      ∀ m ∈ ms, Denotes m.elem.text m.elem.value := by
  induction es with
  | nil => exact ⟨[], rfl, rfl, by simp⟩
  | cons e es ih =>
    obtain ⟨ms, h_chars, h_vals, h_den⟩ := ih fun x hx => h x (List.mem_cons_of_mem _ hx)
    obtain ⟨m, h_text, h_key, h_val, -, h_post, hm⟩ := h e (by simp)
    -- the member's own outer whitespace is empty: the whitespace of `e` takes its place
    let m' : Member := { m with
      pre := e.pre, elem := { m.elem with post := e.post, post_ws := e.post_ws },
      pre_ws := e.pre_ws }
    refine ⟨m' :: ms, ?_, ?_, ?_⟩
    · rw [List.map_cons, List.map_cons, h_chars]
      have h_text' : m'.text = e.text := h_text
      simp only [Padded.chars, Member.padded_pre, Member.padded_text, Member.padded_post, h_text']
      rfl
    · rw [List.map_cons, List.map_cons, h_vals]
      exact congrArg (· :: _) (Prod.ext h_key h_val)
    · intro x hx
      exact (List.mem_cons.mp hx).elim (fun h => h ▸ hm) (h_den x)

/-- A string, read as a value. -/
theorem readStr_sound {cs r : List Char} {v : Value}
    (h : ((readString cs).map fun p => (Value.str p.1, p.2)) = some (v, r)) :
    ∃ t, Denotes t v ∧ cs = t ++ r := by
  obtain ⟨⟨s, r'⟩, h_str, h_eq⟩ := Option.map_eq_some_iff.mp h
  obtain ⟨rfl, rfl⟩ := Prod.mk.inj h_eq
  obtain ⟨body, hb, h_cs⟩ := readString_sound h_str
  refine ⟨'"' :: (body ++ ['"']), Denotes.str hb, ?_⟩
  rw [h_cs, List.cons_append, List.append_assoc]
  rfl

/-- An array, behind its opening bracket. -/
theorem readArr_sound {p : Reader Value} (hp : SoundFor p Denotes) {cs r : List Char} {v : Value}
    (h : ((bracketed p ']' cs).map fun q => (Value.arr q.1, q.2)) = some (v, r)) :
    ∃ t, Denotes t v ∧ '[' :: cs = t ++ r := by
  obtain ⟨⟨vs, r'⟩, h_arr, h_eq⟩ := Option.map_eq_some_iff.mp h
  obtain ⟨rfl, rfl⟩ := Prod.mk.inj h_eq
  rcases bracketed_sound hp h_arr with ⟨w, hw, rfl, rfl⟩ | ⟨es, hne, rfl, hes, rfl⟩
  · exact ⟨_, Denotes.arrEmpty hw, by simp⟩
  · exact ⟨_, Denotes.arr hne hes, by simp⟩

/-- An object, behind its opening brace. -/
theorem readObj_sound {p : Reader Value} (hp : SoundFor p Denotes) {cs r : List Char} {v : Value}
    (h : ((bracketed (readMember p) '\x7d' cs).map fun q => (Value.obj q.1, q.2)) = some (v, r)) :
    ∃ t, Denotes t v ∧ '\x7b' :: cs = t ++ r := by
  obtain ⟨⟨kvs, r'⟩, h_obj, h_eq⟩ := Option.map_eq_some_iff.mp h
  obtain ⟨rfl, rfl⟩ := Prod.mk.inj h_eq
  rcases bracketed_sound (readMember_sound hp) h_obj with
    ⟨w, hw, rfl, rfl⟩ | ⟨es, hne, rfl, hes, rfl⟩
  · exact ⟨_, Denotes.objEmpty hw, by simp⟩
  · -- the members take over the whitespace around the pairs that were read
    obtain ⟨ms, h_chars, h_vals, h_den⟩ := exists_members hes
    have hms : ms ≠ [] := by
      rintro rfl
      exact hne (List.map_eq_nil_iff.mp h_chars.symm)
    have h_obj := Denotes.obj hms h_den
    rw [h_chars, h_vals] at h_obj
    exact ⟨_, h_obj, by simp⟩

/-- **Soundness of the reader**: what it reads, the grammar derives. -/
theorem readValue_sound : ∀ n : Nat, SoundFor (readValue n) Denotes := by
  intro n
  induction n with
  | zero => intro cs v r h; cases h
  | succ n ih =>
    intro cs v r h
    cases cs with
    | nil => cases h
    | cons c cs =>
      -- the first character tells the kind of the value
      rw [readValue] at h
      split at h
      · exact readStr_sound h
      split at h
      · next hc =>
        rw [hc]
        exact readArr_sound ih h
      split at h
      · next hc =>
        rw [hc]
        exact readObj_sound ih h
      split at h
      · exact readLit_sound Denotes.null h
      split at h
      · exact readLit_sound Denotes.true h
      split at h
      · exact readLit_sound Denotes.false h
      · exact readNumber_sound h

theorem text_of_loads {t : List Char} {v : Value} (h : loads t = some v) : Text t v := by
  unfold loads at h
  simp only [Option.bind_eq_bind, Option.bind_eq_some_iff, Option.pure_def] at h
  obtain ⟨⟨v', r⟩, h_read, h⟩ := h
  split at h
  -- nothing but whitespace is left behind the value
  · next h_skip =>
    obtain rfl : v' = v := Option.some.inj h
    obtain ⟨w₁, hw₁, h₁⟩ := skipWs_split t
    obtain ⟨u, hu, h_eq⟩ := readValue_sound _ h_read
    obtain ⟨w₂, hw₂, h₂⟩ := skipWs_split r
    simp only at h_skip
    rw [h_skip, List.append_nil] at h₂
    exact ⟨w₁, u, w₂, hw₁, hw₂, hu, by rw [h₁, h_eq, h₂, List.append_assoc]⟩
  · cases h

/-- **`json.loads` agrees with the grammar.** -/
theorem loads_iff {t : List Char} {v : Value} : loads t = some v ↔ Text t v :=
  ⟨text_of_loads, loads_of_text⟩

/-- A text is well formed if and only if it can be read. -/
theorem wellFormed_iff {t : List Char} : WellFormed t ↔ (loads t).isSome = true := by
  rw [Option.isSome_iff_exists]
  exact exists_congr fun _ => loads_iff.symm

end Json
