import Kalatori.Lib.Program
import Mathlib.Data.DFinsupp.WellFounded

/-!
# Coming to rest

A system that is left to itself comes to rest if each of its steps leaves less to
do, and what it is at when it rests is then inevitable: no choice of steps avoids
it.  The work of a system made of parts is compared part by part, the parts that
give work to others before those.  Two kinds of parts are dealt with here.  A
program has no bound on the answers that it still waits for, since what it asks
for depends on the answers, but each of them leaves it with less.  Of finitely
many parts of one kind it is enough that one has less to do, while the others
have what they had.

* `Prog.Next`, `Prog.next_wf`: programs and what they go on with.
* `Prog.StagedLess`: a task that runs its programs in stages.
* `Layered`: some work that goes before the rest.
* `OneLess`, `oneLess_wf`: one of finitely many parts.
* `Inevitable`, `Inevitable.of_wf`: what no choice of steps avoids.
-/

namespace Program

namespace Prog

variable {S : Signature} {α : Type}

/-- What a program goes on with after an answer. -/
inductive Next : Prog S α → Prog S α → Prop
  | answered (o : S.Op) (k : S.Answer o → Prog S α) (answer : S.Answer o) :
      Next (k answer) (call o k)

theorem next_wf : WellFounded (Next : Prog S α → Prog S α → Prop) := by
  refine ⟨fun p => ?_⟩
  induction p with
  | done a => exact Acc.intro _ fun q h => by cases h
  | call o k ih =>
    refine Acc.intro _ fun q h => ?_
    cases h with
    | answered _ _ answer => exact ih answer

/-- A task is at a later stage, or at the same one and its program has gone on.  The stages
are counted down. -/
def StagedLess : ℕ × Prog S α → ℕ × Prog S α → Prop := Prod.Lex (· < ·) Next

theorem stagedLess_wf : WellFounded (StagedLess : ℕ × Prog S α → ℕ × Prog S α → Prop) :=
  WellFounded.prod_lex wellFounded_lt next_wf

theorem StagedLess.stage {stage stage' : ℕ} (h : stage' < stage) (p p' : Prog S α) :
    StagedLess (stage', p') (stage, p) :=
  Prod.Lex.left _ _ h

theorem StagedLess.answered (stage : ℕ) {o : S.Op} {k : S.Answer o → Prog S α}
    (answer : S.Answer o) : StagedLess (stage, k answer) (stage, call o k) :=
  Prod.Lex.right _ (.answered o k answer)

end Prog

end Program

namespace Transition

variable {ι σ α : Type*}

/-! ## Finitely many parts -/

/-- One of the parts has less to do, and the others are as they were. -/
def OneLess (less : α → α → Prop) (work' work : ι → α) : Prop :=
  ∃ i, less (work' i) (work i) ∧ ∀ j, j ≠ i → work' j = work j

theorem oneLess_wf [LinearOrder ι] [Finite ι] {less : α → α → Prop} (h : WellFounded less) :
    WellFounded (OneLess less : (ι → α) → (ι → α) → Prop) := by
  have hlex := Pi.Lex.wellFounded (ι := ι) (· < ·) fun _ => h
  refine Subrelation.wf ?_ hlex
  rintro work' work ⟨i, hless, hsame⟩
  exact ⟨i, fun j hj => hsame j hj.ne, hless⟩

/-! ## Work that goes before other work -/

/-- There is less of the work that goes before, or the same of it and less of the rest. -/
def Layered (work : σ → α) (less : α → α → Prop) (rest : σ → σ → Prop) (s' s : σ) : Prop :=
  less (work s') (work s) ∨ work s' = work s ∧ rest s' s

theorem layered_wf {work : σ → α} {less : α → α → Prop} {rest : σ → σ → Prop}
    (hless : WellFounded less) (hrest : WellFounded rest) :
    WellFounded (Layered work less rest) := by
  have hlex := InvImage.wf (fun s => (work s, s)) (WellFounded.prod_lex hless hrest)
  refine Subrelation.wf ?_ hlex
  rintro s' s (h | ⟨heq, h⟩)
  · exact Prod.Lex.left _ _ h
  · show Prod.Lex less rest (work s', s') (work s, s)
    rw [heq]
    exact Prod.Lex.right _ h

/-! ## What is inevitable -/

/-- **No choice of steps avoids it**: it is so now, or there is a step, and after every step it is
inevitable. -/
inductive Inevitable (step : σ → σ → Prop) (P : σ → Prop) : σ → Prop
  | now {s : σ} (h : P s) : Inevitable step P s
  | later {s : σ} (hgo : ∃ s', step s s') (h : ∀ s', step s s' → Inevitable step P s') :
      Inevitable step P s

/-- Nothing more happens. -/
def AtRest (step : σ → σ → Prop) (s : σ) : Prop := ∀ s', ¬step s s'

/-- **A system that has less to do after each step comes to rest.** -/
theorem Inevitable.of_wf {step : σ → σ → Prop} {P : σ → Prop} (Inv : σ → Prop)
    (wf : WellFounded fun s' s => Inv s ∧ step s s')
    (keep : ∀ s s', Inv s → step s s' → Inv s')
    (rest : ∀ s, Inv s → AtRest step s → P s) {s : σ} (h : Inv s) : Inevitable step P s := by
  induction s using wf.induction with
  | _ s ih =>
    by_cases hgo : ∃ s', step s s'
    · exact .later hgo fun s' hs => ih s' ⟨h, hs⟩ (keep s s' h hs)
    · exact .now (rest s h (not_exists.mp hgo))

end Transition
