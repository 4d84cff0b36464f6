import Mathlib.Data.List.Basic
import Mathlib.Data.List.Induction
import Mathlib.Tactic.Common

/-!
# Runs of a labelled transition system

`Reach step allow init h s` says that `s` is reached from an initial state by a
run whose labels are `h`, earliest first, and each of whose steps was allowed.
What `allow` asks of a step may look at the history before it; a run with no
condition on its steps allows everything.

* `Reach.invariant`: what holds at the start and is kept by every allowed step.
* `Reach.mono`, `Reach.widen`: fewer conditions, more runs.
* `Reach.last`, `Reach.split`: the last step of a run, and the part before a label.
* `Reach.kept`: what every step keeps holds at the end once it held after a label.
* `replay`, `reach_of_replay`: an executable step function that only makes steps of the
  relation turns a list of actions into a run.
-/

namespace Transition

variable {σ ε α : Type*}

/-- Runs all of whose steps are allowed. -/
inductive Reach (step : σ → ε → σ → Prop) (allow : List ε → σ → ε → Prop) (init : σ → Prop) :
    List ε → σ → Prop
  | start {s : σ} (h : init s) : Reach step allow init [] s
  | next {h : List ε} {s s' : σ} {e : ε} (run : Reach step allow init h s)
      (ok : allow h s e) (hs : step s e s') : Reach step allow init (h ++ [e]) s'

/-- Every step is allowed. -/
def always : List ε → σ → ε → Prop := fun _ _ _ => True

namespace Reach

variable {step : σ → ε → σ → Prop} {allow allow' : List ε → σ → ε → Prop} {init : σ → Prop}

/-- The rule of invariants. -/
theorem invariant {P : List ε → σ → Prop} {h : List ε} {s : σ} (run : Reach step allow init h s)
    (start : ∀ s, init s → P [] s)
    (next : ∀ h s e s', Reach step allow init h s → P h s → allow h s e → step s e s' →
      P (h ++ [e]) s') : P h s := by
  induction run with
  | start h0 => exact start _ h0
  | next run ok hs ih => exact next _ _ _ _ run ih ok hs

theorem mono {h : List ε} {s : σ} (run : Reach step allow init h s)
    (hle : ∀ h s e, allow h s e → allow' h s e) : Reach step allow' init h s := by
  induction run with
  | start h0 => exact .start h0
  | next _ ok hs ih => exact .next ih (hle _ _ _ ok) hs

/-- More initial states, more runs. -/
theorem widen {init' : σ → Prop} {h : List ε} {s : σ} (run : Reach step allow init h s)
    (hle : ∀ s, init s → init' s) : Reach step allow init' h s := by
  induction run with
  | start h0 => exact .start (hle _ h0)
  | next _ ok hs ih => exact .next ih ok hs

theorem weaken {h : List ε} {s : σ} (run : Reach step allow init h s) :
    Reach step always init h s :=
  run.mono fun _ _ _ _ => trivial

/-- A condition on the labels of a run may be asked of its steps. -/
theorem strengthen {P : ε → Prop} {h : List ε} {s : σ} (run : Reach step allow init h s)
    (hP : ∀ e ∈ h, P e) : Reach step (fun _ _ e => P e) init h s := by
  induction run with
  | start h0 => exact .start h0
  | next _ _ hs ih =>
    exact .next (ih fun e he => hP e (List.mem_append_left _ he)) (hP _ (by simp)) hs

/-- The last step of a run. -/
theorem last {h : List ε} {e : ε} {s : σ} (run : Reach step allow init (h ++ [e]) s) :
    ∃ s₁, Reach step allow init h s₁ ∧ allow h s₁ e ∧ step s₁ e s := by
  generalize hh : h ++ [e] = h' at run
  cases run with
  | start h0 => simp at hh
  | next run ok hs =>
    obtain ⟨rfl, he⟩ := List.append_inj' hh rfl
    obtain rfl : e = _ := by simpa using he
    exact ⟨_, run, ok, hs⟩

/-- The run before a label, the step with that label, and that it was allowed. -/
theorem split {h₁ h₂ : List ε} {e : ε} {s : σ} (run : Reach step allow init (h₁ ++ e :: h₂) s) :
    ∃ s₁ s₂, Reach step allow init h₁ s₁ ∧ allow h₁ s₁ e ∧ step s₁ e s₂ := by
  induction h₂ using List.reverseRecOn generalizing s with
  | nil =>
    obtain ⟨s₁, run₁, ok, hs⟩ := run.last
    exact ⟨s₁, s, run₁, ok, hs⟩
  | append_singleton h₂ e' ih =>
    rw [← List.cons_append, ← List.append_assoc] at run
    obtain ⟨_, run₁, -, -⟩ := run.last
    exact ih run₁

/-- What every step keeps, once it holds after a label, holds at the end. -/
theorem kept {Q : σ → Prop} {h₁ h₂ : List ε} {e : ε} {s : σ}
    (keep : ∀ h s e s', Reach step allow init h s → allow h s e → step s e s' → Q s → Q s')
    (run : Reach step allow init (h₁ ++ e :: h₂) s)
    (hq : ∀ s₁ s₂, Reach step allow init h₁ s₁ → step s₁ e s₂ → Q s₂) : Q s := by
  induction h₂ using List.reverseRecOn generalizing s with
  | nil =>
    obtain ⟨s₁, run₁, -, hs⟩ := run.last
    exact hq s₁ s run₁ hs
  | append_singleton h₂ e' ih =>
    rw [← List.cons_append, ← List.append_assoc] at run
    obtain ⟨s₁, run₁, ok, hs⟩ := run.last
    exact keep _ _ _ _ run₁ ok hs (ih run₁)

end Reach

/-! ## Replaying actions -/

/-- Performs the actions in order, collecting the labels. -/
def replay (exec : σ → α → Option (ε × σ)) : σ → List α → Option (List ε × σ)
  | s, [] => some ([], s)
  | s, a :: as =>
    (exec s a).bind fun p => (replay exec p.2 as).map fun q => (p.1 :: q.1, q.2)

theorem reach_of_replay {step : σ → ε → σ → Prop} {init : σ → Prop}
    {exec : σ → α → Option (ε × σ)} (sound : ∀ s a e s', exec s a = some (e, s') → step s e s')
    {h h' : List ε} {s s' : σ} {as : List α} (run : Reach step always init h s)
    (hr : replay exec s as = some (h', s')) : Reach step always init (h ++ h') s' := by
  induction as generalizing h h' s with
  | nil =>
    obtain ⟨rfl, rfl⟩ : [] = h' ∧ s = s' := by simpa [replay] using hr
    simpa using run
  | cons a as ih =>
    obtain ⟨⟨e, s₁⟩, hs, hr⟩ := Option.bind_eq_some_iff.mp hr
    obtain ⟨⟨es, s₂⟩, hrest, heq⟩ := Option.map_eq_some_iff.mp hr
    obtain ⟨rfl, rfl⟩ : e :: es = h' ∧ s₂ = s' := by simpa using heq
    have hnext := ih (run.next trivial (sound _ _ _ _ hs)) hrest
    simpa using hnext

/-- A replay that ends where `p` holds reaches such a state. -/
theorem exists_reach_of_replay {step : σ → ε → σ → Prop} {exec : σ → α → Option (ε × σ)}
    (sound : ∀ s a e s', exec s a = some (e, s') → step s e s') (init : σ → Prop)
    {s : σ} (h0 : init s) (as : List α) {p : List ε × σ → Bool}
    (hp : (replay exec s as).any p = true) :
    ∃ h s', Reach step always init h s' ∧ p (h, s') = true := by
  cases hr : replay exec s as with
  | none =>
    rw [hr] at hp
    simp at hp
  | some q =>
    rw [hr] at hp
    have hrun : Reach step always init ([] ++ q.1) q.2 := reach_of_replay sound (.start h0) hr
    exact ⟨q.1, q.2, by simpa using hrun, by simpa using hp⟩

/-- A step that is performed only if it is allowed. -/
def guarded (exec : σ → α → Option (ε × σ)) (ok : σ → ε → Bool) (s : σ) (a : α) :
    Option (ε × σ) :=
  (exec s a).filter fun p => ok s p.1

/-- A replay of allowed steps makes an allowed run. -/
theorem exists_reach_of_guarded {step : σ → ε → σ → Prop} {allow : List ε → σ → ε → Prop}
    {exec : σ → α → Option (ε × σ)} {ok : σ → ε → Bool}
    (sound : ∀ s a e s', exec s a = some (e, s') → step s e s')
    (hok : ∀ h s e, ok s e = true → allow h s e) (init : σ → Prop) {s : σ} (h0 : init s)
    (as : List α) {p : List ε × σ → Bool} (hp : (replay (guarded exec ok) s as).any p = true) :
    ∃ h s', Reach step allow init h s' ∧ p (h, s') = true := by
  have hsound : ∀ s a e s', guarded exec ok s a = some (e, s') →
      step s e s' ∧ ok s e = true := by
    intro s a e s' h
    obtain ⟨hexec, hallowed⟩ := Option.filter_eq_some_iff.mp h
    exact ⟨sound s a e s' hexec, hallowed⟩
  obtain ⟨h, s', run, hp⟩ := exists_reach_of_replay hsound init h0 as hp
  refine ⟨h, s', ?_, hp⟩
  clear hp
  induction run with
  | start h0 => exact .start h0
  | next _ _ hs ih => exact .next ih (hok _ _ _ hs.2) hs.1

end Transition
