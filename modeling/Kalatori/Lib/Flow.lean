import Kalatori.Lib.Transition
import Mathlib.Algebra.Order.BigOperators.Group.Finset

/-!
# What is on its way

Things come into a system, move about in it, and leave it again; what has left
and what is still there came in.  `Reach.balance` is the rule for it: a measure
of what is inside, which a step raises by no more than what comes in with it and
lowers by what goes out.

A place may be a family of queues, of which only finitely many matter in a run,
so the measure may depend on a bound and the rule on the bound being large.

* `sum_update`: one member of a family is replaced.
* `sum_countP_push`, `sum_countP_pop`: an item joins a queue of a family, or leaves it.
* `countP_replaced`, `countP_taken`: one item of a list is replaced or taken out.
* `countP_le_one`: what occurs once is counted once.
-/

namespace Transition

variable {α σ ε : Type*}

/-! ## Counting in queues -/

/-- What a measure of a family is in total after one of its members was replaced. -/
theorem sum_update (queue : ℕ → α) (measure : α → ℕ) (v : α) {n index : ℕ} (hn : index < n) :
    (∑ i ∈ Finset.range n, measure (Function.update queue index v i)) + measure (queue index) =
      (∑ i ∈ Finset.range n, measure (queue i)) + measure v := by
  have hmem : index ∈ Finset.range n := Finset.mem_range.mpr hn
  have hrest : ∑ i ∈ (Finset.range n).erase index, measure (Function.update queue index v i) =
      ∑ i ∈ (Finset.range n).erase index, measure (queue i) := by
    refine Finset.sum_congr rfl fun i hi => ?_
    rw [Function.update_of_ne (Finset.ne_of_mem_erase hi)]
  rw [← Finset.add_sum_erase _ _ hmem, ← Finset.add_sum_erase _ (fun i => measure (queue i)) hmem,
    hrest, Function.update_self]
  omega

/-- What a count adds for an item. -/
theorem ite_toNat (b : Bool) : (if b = true then 1 else 0) = b.toNat := by
  cases b <;> rfl

/-- An item joins one queue of a family. -/
theorem sum_countP_push (p : α → Bool) (queue : ℕ → List α) (a : α) {n index : ℕ}
    (hn : index < n) :
    ∑ i ∈ Finset.range n, (Function.update queue index (queue index ++ [a]) i).countP p =
      (∑ i ∈ Finset.range n, (queue i).countP p) + (p a).toNat := by
  have hsum := sum_update queue (List.countP p) (queue index ++ [a]) hn
  rw [List.countP_append, List.countP_singleton, ite_toNat] at hsum
  omega

/-- The first item leaves one queue of a family. -/
theorem sum_countP_pop (p : α → Bool) {queue : ℕ → List α} {a : α} {rest : List α} {n index : ℕ}
    (hqueue : queue index = a :: rest) (hn : index < n) :
    (∑ i ∈ Finset.range n, (Function.update queue index rest i).countP p) + (p a).toNat =
      ∑ i ∈ Finset.range n, (queue i).countP p := by
  have hsum := sum_update queue (List.countP p) rest hn
  rw [hqueue, List.countP_cons, ite_toNat] at hsum
  omega

/-- An item is replaced. -/
theorem countP_replaced (p : α → Bool) {l : List α} {n : ℕ} {a : α} (h : l[n]? = some a) (b : α) :
    (l.set n b).countP p + (p a).toNat = l.countP p + (p b).toNat := by
  obtain ⟨hn, rfl⟩ := List.getElem?_eq_some_iff.mp h
  clear h
  induction l generalizing n with
  | nil => cases hn
  | cons c l ih =>
    cases n with
    | zero =>
      simp only [List.set_cons_zero, List.countP_cons, List.getElem_cons_zero]
      cases p c <;> cases p b <;> simp
    | succ n =>
      have hrest := ih (Nat.lt_of_succ_lt_succ hn)
      simp only [List.set_cons_succ, List.countP_cons, List.getElem_cons_succ]
      omega

/-- An item is taken out. -/
theorem countP_taken (p : α → Bool) {l : List α} {n : ℕ} {a : α} (h : l[n]? = some a) :
    (l.eraseIdx n).countP p + (p a).toNat = l.countP p := by
  obtain ⟨hn, rfl⟩ := List.getElem?_eq_some_iff.mp h
  rw [← (List.getElem_cons_eraseIdx_perm hn).countP_eq, List.countP_cons]
  cases p l[n] <;> simp

/-- What does not occur twice is counted once. -/
theorem countP_le_one {p : α → Bool} {l : List α}
    (h : ∀ l₁ a l₂ b l₃, l = l₁ ++ a :: (l₂ ++ b :: l₃) → p a = true → p b = false) :
    l.countP p ≤ 1 := by
  induction l with
  | nil => exact Nat.zero_le 1
  | cons a l ih =>
    have hrest := ih fun l₁ c l₂ b l₃ hl => h (a :: l₁) c l₂ b l₃ (by rw [hl, List.cons_append])
    cases ha : p a with
    | false =>
      rw [List.countP_cons_of_neg (by simp [ha])]
      exact hrest
    | true =>
      have hnone : l.countP p = 0 := by
        refine List.countP_eq_zero.mpr fun b hb => ?_
        obtain ⟨l₂, l₃, rfl⟩ := List.append_of_mem hb
        simp [h [] a l₂ b l₃ rfl ha]
      rw [List.countP_cons_of_pos ha, hnone]

/-! ## The rule -/

/-- **What goes out came in.**  `measure n` is what is inside, with the first `n` queues. -/
theorem Reach.balance {step : σ → ε → σ → Prop} {allow : List ε → σ → ε → Prop} {init : σ → Prop}
    {measure : ℕ → σ → ℕ} {into out : ε → Bool} (hstart : ∀ s, init s → ∀ n, measure n s = 0)
    (hstep : ∀ h s e s', Reach step allow init h s → allow h s e → step s e s' →
      ∃ n₀, ∀ n, n₀ ≤ n →
        measure n s' + (out e).toNat ≤ measure n s + (into e).toNat)
    {h : List ε} {s : σ} (run : Reach step allow init h s) :
    ∃ n₀, ∀ n, n₀ ≤ n → measure n s + h.countP out ≤ h.countP into := by
  refine run.invariant
    (P := fun h s => ∃ n₀, ∀ n, n₀ ≤ n → measure n s + h.countP out ≤ h.countP into) ?_ ?_
  · exact fun s hs => ⟨0, fun n _ => (hstart s hs n).le⟩
  · rintro h s e s' run ⟨n₀, ih⟩ hallow hs
    obtain ⟨n₁, hle⟩ := hstep h s e s' run hallow hs
    refine ⟨max n₀ n₁, fun n hn => ?_⟩
    have hbefore := ih n (le_of_max_le_left hn)
    have hafter := hle n (le_of_max_le_right hn)
    simp only [List.countP_append, List.countP_singleton, ite_toNat]
    omega

end Transition
