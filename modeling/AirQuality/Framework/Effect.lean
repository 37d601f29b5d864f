import Mathlib.Data.List.Basic

/-!
# Loops that an exception can leave

`EStateM ε σ` computations change a state and may raise an exception, and the state they leave then
is the one at that moment. `xs.forM f` runs `f` on the elements of a list in order and is left by
the first exception. Either no element raises one, and the loop is a fold (`forM_ok`), or the first
that does ends it (`forM_error`). What all iterations keep, the loop keeps, however it is left
(`forM_invariant`). `mapM` collects what a partial function gives, and gives nothing if one element
has nothing to give (`mem_of_mapM`, `mapM_total`).
-/

namespace Effect

variable {ε σ α : Type} {f : α → EStateM ε σ Unit}

theorem forM_cons (a : α) (as : List α) (s : σ) :
    (a :: as).forM f s = (f a >>= fun _ => as.forM f) s := rfl

theorem forM_cons_ok {a : α} {as : List α} {s s' : σ} (h : f a s = .ok () s') :
    (a :: as).forM f s = as.forM f s' := by
  rw [forM_cons]
  simp only [bind, EStateM.bind, h]

/-- **The loop is left at the first exception.** -/
theorem forM_error {a : α} {as : List α} {e : ε} {s s' : σ} (h : f a s = .error e s') :
    (a :: as).forM f s = .error e s' := by
  rw [forM_cons]
  simp only [bind, EStateM.bind, h]

/-- **A loop without exceptions is a fold.** -/
theorem forM_ok {g : σ → α → σ} {as : List α} (h : ∀ a ∈ as, ∀ s, f a s = .ok () (g s a)) (s : σ) :
    as.forM f s = .ok () (as.foldl g s) := by
  induction as generalizing s with
  | nil => rfl
  | cons a as ih =>
    rw [forM_cons_ok (h a List.mem_cons_self s), List.foldl_cons]
    exact ih (fun b hb => h b (List.mem_cons_of_mem a hb)) (g s a)

/-- The state that a computation leaves, exception or not. -/
def stateAfter {β : Type} : EStateM.Result ε σ β → σ
  | .ok _ s => s
  | .error _ s => s

/-- **What every iteration keeps, the loop keeps.** -/
theorem forM_invariant {P : σ → Prop} {as : List α}
    (h : ∀ a ∈ as, ∀ s, P s → P (stateAfter (f a s))) {s : σ} (h_init : P s) :
    P (stateAfter (as.forM f s)) := by
  induction as generalizing s with
  | nil => exact h_init
  | cons a as ih =>
    have h_first := h a List.mem_cons_self s h_init
    cases h_call : f a s with
    | ok u s' =>
      rw [h_call] at h_first
      rw [forM_cons_ok h_call]
      exact ih (fun b hb => h b (List.mem_cons_of_mem a hb)) h_first
    | error e s' =>
      rw [h_call] at h_first
      rw [forM_error h_call]
      exact h_first

/-- What is collected from a list comes from its elements. -/
theorem mem_of_mapM {α β : Type} {g : α → Option β} {as : List α} {bs : List β}
    (h : as.mapM g = some bs) {b : β} (hb : b ∈ bs) : ∃ a ∈ as, g a = some b := by
  induction as generalizing bs with
  | nil =>
    obtain rfl : [] = bs := Option.some.inj h
    cases hb
  | cons a as ih =>
    rw [List.mapM_cons] at h
    obtain ⟨c, h_first, h⟩ := Option.bind_eq_some_iff.mp h
    obtain ⟨cs, h_rest, h⟩ := Option.bind_eq_some_iff.mp h
    obtain rfl : c :: cs = bs := Option.some.inj h
    rcases List.mem_cons.mp hb with rfl | hb
    · exact ⟨a, List.mem_cons_self, h_first⟩
    · obtain ⟨a', h_mem, h_value⟩ := ih h_rest hb
      exact ⟨a', List.mem_cons_of_mem _ h_mem, h_value⟩

/-- If every element has something to give, all of it is collected, in order. -/
theorem mapM_total {α β : Type} {g : α → Option β} {as : List α} (h : ∀ a ∈ as, ∃ b, g a = some b) :
    ∃ bs, as.mapM g = some bs ∧ as.map g = bs.map some := by
  induction as with
  | nil => exact ⟨[], rfl, rfl⟩
  | cons a as ih =>
    obtain ⟨b, h_first⟩ := h a List.mem_cons_self
    obtain ⟨bs, h_rest, h_map⟩ := ih fun a' ha' => h a' (List.mem_cons_of_mem a ha')
    refine ⟨b :: bs, ?_, ?_⟩
    · rw [List.mapM_cons, h_first, h_rest]
      rfl
    · rw [List.map_cons, List.map_cons, h_first, h_map]

end Effect
