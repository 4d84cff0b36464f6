import Mathlib.Data.List.Basic
import Mathlib.Order.Basic
import Mathlib.Tactic.Common

/-!
# Reading a sorted list by pages

A reader of a long list is given it page by page.  A page has at most `count`
entries, those that come first above a cursor, and its last entry is the cursor of
the page after it; a page without entries is the last.

* `above_of_last`: what lies above the last entry of a part is the rest.
* `flatten_pages`: the pages one after the other.
* `append_take_above_iff`: when a list and what lies above its last entry make the whole.
-/

namespace Paging

variable {α : Type*} (r : α → α → Prop) [DecidableRel r]

/-- What lies above a cursor.  Without a cursor it is everything. -/
def above (cursor : Option α) (l : List α) : List α :=
  l.filter fun a => cursor.all fun c => decide (r c a)

/-- The first `n` pages above a cursor. -/
def pages (count : ℕ) (l : List α) : ℕ → Option α → List (List α)
  | 0, _ => []
  | n + 1, cursor =>
    match ((above r cursor l).take count).getLast? with
    | none => []
    | some last => (above r cursor l).take count :: pages count l n (some last)

variable {r} {l l' : List α} {cursor : Option α} {last : α}

@[simp] theorem above_none (l : List α) : above r none l = l := by simp [above]

theorem mem_above {a c : α} : a ∈ above r (some c) l ↔ a ∈ l ∧ r c a := by simp [above]

theorem pairwise_above (hl : l.Pairwise r) : (above r cursor l).Pairwise r := hl.filter _

/-- What lies above the last entry of a part is the rest. -/
theorem above_of_last [Std.Asymm r] (h : (l ++ l').Pairwise r) (hlast : l.getLast? = some last) :
    above r (some last) (l ++ l') = l' := by
  obtain ⟨init, rfl⟩ := List.getLast?_eq_some_iff.mp hlast
  obtain ⟨hleft, -, hcross⟩ := List.pairwise_append.mp h
  obtain ⟨-, -, hinit⟩ := List.pairwise_append.mp hleft
  rw [above, List.filter_append]
  have hnone : (init ++ [last]).filter (fun a => (some last).all fun c => decide (r c a)) = [] := by
    rw [List.filter_eq_nil_iff]
    intro a ha habove
    have hr : r last a := by simpa using habove
    rcases List.mem_append.mp ha with ha | ha
    · exact Std.Asymm.asymm _ _ (hinit a ha last (List.mem_singleton_self _)) hr
    · obtain rfl := List.mem_singleton.mp ha
      exact Std.Asymm.asymm _ _ hr hr
  have hall : l'.filter (fun a => (some last).all fun c => decide (r c a)) = l' := by
    rw [List.filter_eq_self]
    intro a ha
    have hr : r last a :=
      hcross last (List.mem_append_right _ (List.mem_singleton_self _)) a ha
    simpa using hr
  rw [hnone, hall, List.nil_append]

/-- What lies above an entry lies above every cursor below it. -/
theorem above_above [IsTrans α r] (h : last ∈ above r cursor l) :
    above r (some last) (above r cursor l) = above r (some last) l := by
  cases cursor with
  | none => rw [above_none]
  | some c =>
    have hc : r c last := (mem_above.mp h).2
    rw [above, above, above, List.filter_filter]
    refine List.filter_congr fun a _ => ?_
    simp only [Option.all_some, Bool.and_eq_left_iff_imp, decide_eq_true_eq]
    exact fun hlast => IsTrans.trans _ _ _ hc hlast

/-- **The pages one after the other** are the first entries above the cursor. -/
theorem flatten_pages [Std.Asymm r] [IsTrans α r] (hl : l.Pairwise r) (count n : ℕ)
    (cursor : Option α) :
    (pages r count l n cursor).flatten = (above r cursor l).take (n * count) := by
  induction n generalizing cursor with
  | zero => simp [pages]
  | succ n ih =>
    have hsize : (n + 1) * count = count + n * count := by
      rw [Nat.add_mul, Nat.one_mul, Nat.add_comm]
    rw [pages, hsize, List.take_add]
    cases hlast : ((above r cursor l).take count).getLast? with
    | none =>
      have hempty : (above r cursor l).take count = [] := List.getLast?_eq_none_iff.mp hlast
      rw [hempty]
      rcases List.take_eq_nil_iff.mp hempty with hcount | hnil
      · simp [hcount]
      · simp [hnil]
    | some last =>
      have hmem : last ∈ above r cursor l := List.mem_of_mem_take (List.mem_of_getLast? hlast)
      have hsplit := List.take_append_drop count (above r cursor l)
      have hrest : above r (some last) (above r cursor l) = (above r cursor l).drop count := by
        have hsorted : (above r cursor l).Pairwise r := pairwise_above hl
        rw [← hsplit] at hsorted
        have hcut := above_of_last hsorted hlast
        rwa [hsplit] at hcut
      show ((above r cursor l).take count ++ (pages r count l n (some last)).flatten) = _
      rw [ih (some last), ← above_above hmem, hrest]

/-- When a list, and so many entries above its last one, make the whole. -/
theorem append_take_above_iff [Std.Asymm r] {first : List α} (hl : l.Pairwise r)
    (hlast : first.getLast? = some last) (m : ℕ) :
    first ++ (above r (some last) l).take m = l ↔ first <+: l ∧ l.length ≤ first.length + m := by
  constructor
  · intro h
    refine ⟨⟨_, h⟩, ?_⟩
    have hlength := congrArg List.length h
    rw [List.length_append, List.length_take] at hlength
    omega
  · rintro ⟨⟨rest, rfl⟩, hle⟩
    rw [List.length_append] at hle
    rw [above_of_last hl hlast, List.take_of_length_le (by omega)]

end Paging
