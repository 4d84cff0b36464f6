import Mathlib.Data.List.Basic
import Mathlib.Tactic.Common
import Mathlib.Tactic.Tauto

/-!
# Results of functions that may fail

`Gives Q x` says that `x` is a result of which `Q` holds, and `Refuses x` that it
is an error.  Both are computed along the binds of a program, so that what holds
of its result can be rewritten step by step.

* `gives_bind`, `refuses_bind`, `bind_eq_ok_iff`: sequencing.
* `gives_mapM`, `refuses_mapM`: going through a list.
* `forall_ok_iff`: what holds of every result, if there is one.
-/

namespace Results

variable {ε α β : Type}

/-- A result, and what is known of it. -/
def Gives (Q : α → Prop) (x : Except ε α) : Prop := ∃ a, x = .ok a ∧ Q a

/-- There is no result. -/
def Refuses (x : Except ε α) : Prop := ∃ e, x = .error e

@[simp] theorem gives_ok {Q : α → Prop} {a : α} : Gives Q (.ok a : Except ε α) ↔ Q a := by
  simp [Gives]

@[simp] theorem not_gives_error {Q : α → Prop} {e : ε} : ¬Gives Q (.error e : Except ε α) := by
  simp [Gives]

@[simp] theorem not_refuses_ok {a : α} : ¬Refuses (.ok a : Except ε α) := by simp [Refuses]

@[simp] theorem refuses_error {e : ε} : Refuses (.error e : Except ε α) := ⟨e, rfl⟩

theorem Refuses.ne_ok {x : Except ε α} {a : α} (h : Refuses x) : x ≠ .ok a := by
  obtain ⟨e, rfl⟩ := h
  exact nofun

theorem gives_bind {Q : β → Prop} {x : Except ε α} {f : α → Except ε β} :
    Gives Q (x >>= f) ↔ Gives (fun a => Gives Q (f a)) x := by
  cases x with
  | error e => exact iff_of_false not_gives_error not_gives_error
  | ok a =>
    show Gives Q (f a) ↔ _
    simp

theorem refuses_bind {x : Except ε α} {f : α → Except ε β} :
    Refuses (x >>= f) ↔ Refuses x ∨ Gives (fun a => Refuses (f a)) x := by
  cases x with
  | error e => exact iff_of_true refuses_error (.inl refuses_error)
  | ok a =>
    show Refuses (f a) ↔ _
    simp

theorem bind_eq_ok_iff {x : Except ε α} {f : α → Except ε β} {b : β} :
    x >>= f = .ok b ↔ ∃ a, x = .ok a ∧ f a = .ok b := by
  cases x with
  | error e => exact iff_of_false nofun fun ⟨_, h, _⟩ => nomatch h
  | ok a =>
    show f a = .ok b ↔ _
    simp

theorem gives_congr {Q Q' : α → Prop} (h : ∀ a, Q a ↔ Q' a) (x : Except ε α) :
    Gives Q x ↔ Gives Q' x :=
  exists_congr fun a => and_congr_right fun _ => h a

theorem gives_and {Q : α → Prop} {p : Prop} (x : Except ε α) :
    Gives (fun a => Q a ∧ p) x ↔ Gives Q x ∧ p := by
  simp only [Gives, ← and_assoc, exists_and_right]

/-- What every result satisfies is satisfied, if there is a result. -/
theorem forall_ok_iff {Q : α → Prop} {x : Except ε α} :
    (∀ a, x = .ok a → Q a) ↔ Refuses x ∨ Gives Q x := by
  cases x with
  | error e => simp
  | ok a => simp

/-- A list is gone through if no entry is refused, and what is kept of the entries is kept of
the list. -/
theorem gives_mapM {γ : Type} {f : α → Except ε β} {g : α → γ} {g' : β → γ}
    (hg : ∀ a b, f a = .ok b → g' b = g a) {P : List γ → Prop} {R : β → Prop} (l : List α) :
    Gives (fun l' => P (l'.map g') ∧ ∀ b ∈ l', R b) (l.mapM f) ↔
      P (l.map g) ∧ ∀ a ∈ l, Gives R (f a) := by
  induction l generalizing P with
  | nil =>
    rw [List.mapM_nil]
    exact gives_ok.trans (by simp)
  | cons a l ih =>
    rw [List.mapM_cons, gives_bind]
    cases hfa : f a with
    | error e => simp [hfa]
    | ok b =>
      have hstep : ∀ l', Gives (fun l' => P (l'.map g') ∧ ∀ b ∈ l', R b)
          (pure (b :: l') : Except ε (List β)) ↔
            (R b ∧ P (g a :: l'.map g')) ∧ ∀ b ∈ l', R b := by
        intro l'
        refine gives_ok.trans ?_
        rw [List.map_cons, hg a b hfa, List.forall_mem_cons]
        tauto
      rw [gives_ok, gives_bind, gives_congr hstep, ih (P := fun names => R b ∧ P (g a :: names)),
        List.map_cons, List.forall_mem_cons, hfa, gives_ok]
      tauto

theorem refuses_mapM {f : α → Except ε β} (l : List α) :
    Refuses (l.mapM f) ↔ ∃ a ∈ l, Refuses (f a) := by
  induction l with
  | nil =>
    rw [List.mapM_nil]
    exact iff_of_false not_refuses_ok (by simp)
  | cons a l ih =>
    rw [List.mapM_cons, refuses_bind]
    cases hfa : f a with
    | error e => simp [hfa]
    | ok b =>
      simp only [not_refuses_ok, false_or, gives_ok, refuses_bind, ih, List.mem_cons,
        exists_eq_or_imp, hfa]
      constructor
      · rintro (h | h)
        · exact h
        · obtain ⟨l', -, h⟩ := h
          exact absurd h not_refuses_ok
      · exact fun h => .inl h

end Results
