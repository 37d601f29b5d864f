import Mathlib.Data.List.Basic

/-!
# Character memory

A flat memory of characters, as C's `char` buffers see it. A buffer is a base address and a size;
nothing in the memory itself says where one ends, so every statement about a write carries a frame
condition (`SameOutside`) that says which cells it left alone.

The central fact is `write_extend`: writing `ys` right behind `xs`, over what stood there, is the
same as having written `xs ++ ys` at once. A text that is assembled by appending NUL-terminated
pieces is therefore the concatenation of the pieces with one NUL at the end.
-/

namespace CMem

/-- A memory maps addresses to characters. -/
abbrev Mem := Nat → Char

/-- The terminating character of a C string. -/
def nul : Char := Char.ofNat 0

/-- Write the characters `cs` at address `p`. -/
def write (m : Mem) (p : Nat) (cs : List Char) : Mem := fun a =>
  if p ≤ a then (cs[a - p]?).getD (m a) else m a

/-- The `n` characters at address `p`. -/
def read (m : Mem) (p n : Nat) : List Char := (List.range n).map fun i => m (p + i)

/-- `m'` differs from `m` at most inside the `n` cells at `p`. -/
def SameOutside (m m' : Mem) (p n : Nat) : Prop := ∀ a, a < p ∨ p + n ≤ a → m' a = m a

/-! ### Frames -/

theorem SameOutside.refl (m : Mem) (p n : Nat) : SameOutside m m p n := fun _ _ => rfl

theorem SameOutside.trans {m₁ m₂ m₃ : Mem} {p n : Nat} (h₁ : SameOutside m₁ m₂ p n)
    (h₂ : SameOutside m₂ m₃ p n) : SameOutside m₁ m₃ p n :=
  fun a ha => (h₂ a ha).trans (h₁ a ha)

/-- A smaller region is inside a larger one. -/
theorem SameOutside.mono {m m' : Mem} {p n q k : Nat} (h : SameOutside m m' p n) (hq : q ≤ p)
    (hk : p + n ≤ q + k) : SameOutside m m' q k := by
  intro a ha
  refine h a ?_
  rcases ha with ha | ha
  · exact Or.inl (by omega)
  · exact Or.inr (by omega)

/-! ### Writing and reading -/

theorem write_of_lt (m : Mem) {p a : Nat} (cs : List Char) (h : a < p) : write m p cs a = m a :=
  if_neg (by omega)

theorem write_of_ge (m : Mem) {p a : Nat} (cs : List Char) (h : p + cs.length ≤ a) :
    write m p cs a = m a := by
  unfold write
  rw [if_pos (by omega), List.getElem?_eq_none (by omega), Option.getD_none]

theorem write_inside (m : Mem) (p : Nat) (cs : List Char) {i : Nat} (h : i < cs.length) :
    write m p cs (p + i) = cs[i] := by
  unfold write
  rw [if_pos (by omega), Nat.add_sub_cancel_left, List.getElem?_eq_getElem h, Option.getD_some]

@[simp] theorem write_nil (m : Mem) (p : Nat) : write m p [] = m := by
  ext a : 1
  by_cases h : p ≤ a
  · exact write_of_ge m [] (by simpa using h)
  · exact write_of_lt m [] (by omega)

theorem sameOutside_write (m : Mem) (p : Nat) {cs : List Char} {n : Nat} (h : cs.length ≤ n) :
    SameOutside m (write m p cs) p n := by
  intro a ha
  rcases ha with ha | ha
  · exact write_of_lt m cs ha
  · exact write_of_ge m cs (by omega)

/-- **Appending.** A write of `zs` behind `xs` that covers what stood there leaves `xs ++ zs`. -/
theorem write_extend (m : Mem) (p : Nat) (xs ys zs : List Char) (h : ys.length ≤ zs.length) :
    write (write m p (xs ++ ys)) (p + xs.length) zs = write m p (xs ++ zs) := by
  ext a : 1
  by_cases h_lo : a < p + xs.length
  · rw [write_of_lt _ _ h_lo]
    by_cases h_p : a < p
    · rw [write_of_lt _ _ h_p, write_of_lt _ _ h_p]
    · -- inside `xs`
      obtain ⟨i, rfl⟩ : ∃ i, a = p + i := ⟨a - p, by omega⟩
      have hi : i < xs.length := by omega
      rw [write_inside _ _ _ (by simp only [List.length_append]; omega),
        write_inside _ _ _ (by simp only [List.length_append]; omega),
        List.getElem_append_left hi, List.getElem_append_left hi]
  · by_cases h_hi : p + xs.length + zs.length ≤ a
    · -- behind both writes
      rw [write_of_ge _ _ h_hi, write_of_ge _ _ (by simp only [List.length_append]; omega),
        write_of_ge _ _ (by simp only [List.length_append]; omega)]
    · -- inside `zs`
      obtain ⟨i, rfl⟩ : ∃ i, a = p + xs.length + i := ⟨a - (p + xs.length), by omega⟩
      rw [write_inside _ _ _ (by omega), Nat.add_assoc,
        write_inside _ _ _ (by simp only [List.length_append]; omega),
        List.getElem_append_right (by omega)]
      simp only [Nat.add_sub_cancel_left]

/-- Writing what is already there changes nothing. -/
theorem write_same {m : Mem} {p : Nat} {c : Char} (h : m p = c) : write m p [c] = m := by
  ext a : 1
  by_cases ha : a = p
  · subst ha
    exact (write_inside m a [c] (i := 0) (by simp)).trans h.symm
  · rcases Nat.lt_or_gt_of_ne ha with h_lt | h_gt
    · exact write_of_lt m _ h_lt
    · exact write_of_ge m _ (by simp; omega)

@[simp] theorem length_read (m : Mem) (p n : Nat) : (read m p n).length = n := by
  simp [read]

theorem read_write (m : Mem) (p : Nat) (xs ys : List Char) :
    read (write m p (xs ++ ys)) p xs.length = xs := by
  refine List.ext_getElem (by simp) fun i h₁ h₂ => ?_
  simp only [read, List.getElem_map, List.getElem_range]
  rw [write_inside _ _ _ (by simp only [List.length_append]; omega), List.getElem_append_left h₂]

/-- The character behind the text that was written. -/
theorem write_behind (m : Mem) (p : Nat) (xs : List Char) (c : Char) :
    write m p (xs ++ [c]) (p + xs.length) = c := by
  rw [write_inside _ _ _ (by simp)]
  simp

theorem read_congr {m m' : Mem} {p n : Nat} (h : ∀ a, p ≤ a → a < p + n → m' a = m a) :
    read m' p n = read m p n :=
  List.map_congr_left fun i hi => h _ (by omega) (by simp only [List.mem_range] at hi; omega)

theorem read_append (m : Mem) (p n k : Nat) :
    read m p (n + k) = read m p n ++ read m (p + n) k := by
  unfold read
  rw [List.range_add, List.map_append, List.map_map]
  simp only [Function.comp_def, Nat.add_assoc]

end CMem
