import Mathlib.Data.List.Basic
import Mathlib.Tactic.Common

/-!
# Programs that wait for answers

A program over a signature either is done or performs one operation and goes on
with the answer.  It is the body of an asynchronous task cut at its waiting
points: what answers an operation, and what happens between two of them, is not
part of the program.

`Prog.Holds pre post tr p` reads a program as a set of conversations.  Started
after the conversation `tr`, whatever the answers are, every operation that `p`
performs satisfies `pre` after what was said before it, and if `p` ends then
`post` holds of the whole conversation and the result.

* `Prog.holds_bind`, `Prog.holds_perform`: the rules for sequencing and for one operation.
* `Prog.Holds.mono`, `Prog.Holds.and`, `Prog.Holds.grows`, `Prog.Holds.ops`: weakening,
  conjunction, and that a program only extends the conversation it was started after, by operations
  that it may perform.
* `Prog.Only`: what holds of every operation by itself.
* `Prog.holds_run_bind`: sequencing for programs that may stop with an error.
* `Prog.Runs`: one complete conversation, and `Prog.Holds.runs`; `Prog.exists_runs`.
* `Prog.Stuck`: a conversation that stops at an operation nothing can answer.
* `Prog.After`: what is left of a program in the middle of a conversation.
* `Prog.play`: the conversation with somebody whose answers are settled beforehand.
-/

namespace Program

/-- The operations of a kind of program, each with the type of its answers. -/
structure Signature where
  Op : Type
  Answer : Op → Type

/-- An operation and the answer it got. -/
abbrev Exchange (S : Signature) := Σ o : S.Op, S.Answer o

/-- A conversation, earliest exchange first. -/
abbrev Trace (S : Signature) := List (Exchange S)

inductive Prog (S : Signature) (α : Type) : Type
  | done (a : α)
  | call (o : S.Op) (k : S.Answer o → Prog S α)

namespace Prog

variable {S : Signature} {α β γ : Type}

protected def bind : Prog S α → (α → Prog S β) → Prog S β
  | done a, f => f a
  | call o k, f => call o fun r => (k r).bind f

instance : Monad (Prog S) where
  pure := done
  bind := Prog.bind

@[simp] theorem pure_eq (a : α) : (pure a : Prog S α) = done a := rfl

@[simp] theorem done_bind (a : α) (f : α → Prog S β) : done a >>= f = f a := rfl

@[simp] theorem call_bind (o : S.Op) (k : S.Answer o → Prog S α) (f : α → Prog S β) :
    call o k >>= f = call o fun r => k r >>= f := rfl

theorem bind_done (p : Prog S α) : p >>= done = p := by
  induction p with
  | done a => rfl
  | call o k ih =>
    rw [call_bind]
    exact congrArg (call o) (funext ih)

theorem bind_assoc (p : Prog S α) (f : α → Prog S β) (g : β → Prog S γ) :
    p >>= f >>= g = p >>= fun a => f a >>= g := by
  induction p with
  | done a => rfl
  | call o k ih =>
    simp only [call_bind]
    exact congrArg (call o) (funext ih)

instance : LawfulMonad (Prog S) :=
  LawfulMonad.mk' (Prog S) bind_done (fun _ _ => rfl) bind_assoc

/-- One operation. -/
def perform (o : S.Op) : Prog S (S.Answer o) := call o done

@[simp] theorem perform_bind (o : S.Op) (f : S.Answer o → Prog S α) :
    perform o >>= f = call o f := rfl

/-! ## What holds of every conversation -/

variable {pre pre' : Trace S → S.Op → Prop} {post post' : Trace S → α → Prop} {tr : Trace S}

/-- Every operation satisfies `pre`, and the end satisfies `post`. -/
def Holds (pre : Trace S → S.Op → Prop) (post : Trace S → α → Prop) : Trace S → Prog S α → Prop
  | tr, done a => post tr a
  | tr, call o k => pre tr o ∧ ∀ r, Holds pre post (tr ++ [⟨o, r⟩]) (k r)

@[simp] theorem holds_done (a : α) : Holds pre post tr (done a) ↔ post tr a := Iff.rfl

@[simp] theorem holds_call (o : S.Op) (k : S.Answer o → Prog S α) :
    Holds pre post tr (call o k) ↔
      pre tr o ∧ ∀ r, Holds pre post (tr ++ [⟨o, r⟩]) (k r) := Iff.rfl

@[simp] theorem holds_perform (o : S.Op) {post : Trace S → S.Answer o → Prop} :
    Holds pre post tr (perform o) ↔ pre tr o ∧ ∀ r, post (tr ++ [⟨o, r⟩]) r := Iff.rfl

theorem holds_bind (p : Prog S β) (f : β → Prog S α) :
    Holds pre post tr (p >>= f) ↔
      Holds pre (fun tr' b => Holds pre post tr' (f b)) tr p := by
  induction p generalizing tr with
  | done b => rfl
  | call o k ih =>
    rw [call_bind, holds_call, holds_call]
    exact and_congr_right fun _ => forall_congr' fun r => ih r

theorem Holds.mono {p : Prog S α} (h : Holds pre post tr p)
    (hpre : ∀ tr o, pre tr o → pre' tr o) (hpost : ∀ tr a, post tr a → post' tr a) :
    Holds pre' post' tr p := by
  induction p generalizing tr with
  | done a => exact hpost tr a h
  | call o k ih => exact ⟨hpre tr o h.1, fun r => ih r (h.2 r)⟩

theorem Holds.and {p : Prog S α} (h : Holds pre post tr p) (h' : Holds pre' post' tr p) :
    Holds (fun tr o => pre tr o ∧ pre' tr o) (fun tr a => post tr a ∧ post' tr a) tr p := by
  induction p generalizing tr with
  | done a => exact ⟨h, h'⟩
  | call o k ih => exact ⟨⟨h.1, h'.1⟩, fun r => ih r (h.2 r) (h'.2 r)⟩

theorem holds_true (tr : Trace S) (p : Prog S α) :
    Holds (fun _ _ => True) (fun _ _ => True) tr p := by
  induction p generalizing tr with
  | done a => trivial
  | call o k ih => exact ⟨trivial, fun r => ih r _⟩

/-- A program only adds to the conversation it was started after. -/
theorem Holds.grows {p : Prog S α} (h : Holds pre post tr p) :
    Holds (fun tr' o => tr <+: tr' ∧ pre tr' o) (fun tr' a => tr <+: tr' ∧ post tr' a) tr p := by
  suffices hs : ∀ tr₀, tr₀ <+: tr →
      Holds (fun tr' o => tr₀ <+: tr' ∧ pre tr' o) (fun tr' a => tr₀ <+: tr' ∧ post tr' a) tr p from
    hs tr (List.prefix_refl tr)
  intro tr₀ h₀
  induction p generalizing tr with
  | done a => exact ⟨h₀, h⟩
  | call o k ih =>
    exact ⟨⟨h₀, h.1⟩, fun r => ih r (h.2 r) (h₀.trans (List.prefix_append tr _))⟩

/-- What a program adds to the conversation are operations that it may perform. -/
theorem Holds.ops {q : S.Op → Prop} {p : Prog S α} (h : Holds (fun _ o => q o) post tr p) :
    Holds (fun tr' o => (∃ seg, tr' = tr ++ seg ∧ ∀ e ∈ seg, q e.1) ∧ q o)
      (fun tr' a => (∃ seg, tr' = tr ++ seg ∧ ∀ e ∈ seg, q e.1) ∧ post tr' a) tr p := by
  suffices hs : ∀ tr₀ seg : Trace S, tr = tr₀ ++ seg → (∀ e ∈ seg, q e.1) →
      Holds (fun tr' o => (∃ seg, tr' = tr₀ ++ seg ∧ ∀ e ∈ seg, q e.1) ∧ q o)
        (fun tr' a => (∃ seg, tr' = tr₀ ++ seg ∧ ∀ e ∈ seg, q e.1) ∧ post tr' a) tr p from
    hs tr [] (List.append_nil tr).symm fun _ he => absurd he List.not_mem_nil
  intro tr₀ seg htr hseg
  induction p generalizing tr seg with
  | done a => exact ⟨⟨seg, htr, hseg⟩, h⟩
  | call o k ih =>
    refine ⟨⟨⟨seg, htr, hseg⟩, h.1⟩, fun r => ?_⟩
    refine ih r (h.2 r) (seg ++ [⟨o, r⟩]) (by rw [htr, List.append_assoc]) ?_
    intro e he
    rcases List.mem_append.mp he with he | he
    · exact hseg e he
    · obtain rfl := List.mem_singleton.mp he
      exact h.1

/-- All operations of a program, in whatever conversation, are of a kind. -/
def Only (q : S.Op → Prop) : Prog S α → Prop
  | done _ => True
  | call o k => q o ∧ ∀ r, Only q (k r)

theorem Only.bind {q : S.Op → Prop} {p : Prog S β} {f : β → Prog S α} (h : Only q p)
    (h' : ∀ b, Only q (f b)) : Only q (p >>= f) := by
  induction p with
  | done b => exact h' b
  | call o k ih => exact ⟨h.1, fun r => ih r (h.2 r)⟩

/-! ## Programs that may stop -/

variable {ε : Type}

theorem holds_run_bind {post : Trace S → Except ε α → Prop} (p : ExceptT ε (Prog S) β)
    (f : β → ExceptT ε (Prog S) α) :
    Holds pre post tr (p >>= f).run ↔
      Holds pre (fun tr' r =>
        match r with
        | .ok b => Holds pre post tr' (f b).run
        | .error e => post tr' (.error e)) tr p.run := by
  rw [ExceptT.run_bind, holds_bind]
  refine ⟨fun h => h.mono (fun _ _ h => h) ?_, fun h => h.mono (fun _ _ h => h) ?_⟩ <;>
    rintro tr' (e | b) h <;> exact h

theorem Only.run_bind {q : S.Op → Prop} {p : ExceptT ε (Prog S) β}
    {f : β → ExceptT ε (Prog S) α} (h : Only q p.run) (h' : ∀ b, Only q (f b).run) :
    Only q (p >>= f).run := by
  rw [ExceptT.run_bind]
  refine h.bind fun r => ?_
  cases r with
  | error e => trivial
  | ok b => exact h' b

@[simp] theorem holds_run_pure {post : Trace S → Except ε α → Prop} (a : α) :
    Holds pre post tr (pure a : ExceptT ε (Prog S) α).run ↔ post tr (.ok a) := Iff.rfl

@[simp] theorem holds_run_throw {post : Trace S → Except ε α → Prop} (e : ε) :
    Holds pre post tr (throw e : ExceptT ε (Prog S) α).run ↔ post tr (.error e) := Iff.rfl

/-! ## Complete conversations -/

/-- `p` ends with the result `a` after the conversation `tr`. -/
inductive Runs : Prog S α → Trace S → α → Prop
  | done (a : α) : Runs (done a) [] a
  | call {o : S.Op} {k : S.Answer o → Prog S α} {tr : Trace S} {a : α} (r : S.Answer o)
      (h : Runs (k r) tr a) : Runs (call o k) (⟨o, r⟩ :: tr) a

/-- `p` comes to the operation `o` after the conversation `tr`. -/
inductive Stuck (o : S.Op) : Prog S α → Trace S → Prop
  | here {k : S.Answer o → Prog S α} : Stuck o (call o k) []
  | call {o' : S.Op} {k : S.Answer o' → Prog S α} {tr : Trace S} (r : S.Answer o')
      (h : Stuck o (k r) tr) : Stuck o (call o' k) (⟨o', r⟩ :: tr)

theorem Runs.bind {p : Prog S β} {f : β → Prog S α} {tr tr' : Trace S} {b : β} {a : α}
    (h : Runs p tr b) (h' : Runs (f b) tr' a) : Runs (p >>= f) (tr ++ tr') a := by
  induction h with
  | done b => exact h'
  | call r _ ih => exact .call r (ih h')

/-- What is left of a program after a conversation. -/
inductive After : Prog S α → Trace S → Prog S α → Prop
  | refl (p : Prog S α) : After p [] p
  | call {o : S.Op} {k : S.Answer o → Prog S α} {tr : Trace S} {p : Prog S α} (r : S.Answer o)
      (h : After (k r) tr p) : After (call o k) (⟨o, r⟩ :: tr) p

theorem After.unique {p q q' : Prog S α} {tr : Trace S} (h : After p tr q) (h' : After p tr q') :
    q = q' := by
  induction h with
  | refl p =>
    cases h' with
    | refl => rfl
  | call r _ ih =>
    cases h' with
    | call _ h' => exact ih h'

theorem After.snoc {p : Prog S α} {tr : Trace S} {o : S.Op} {k : S.Answer o → Prog S α}
    (h : After p tr (Prog.call o k)) (r : S.Answer o) : After p (tr ++ [⟨o, r⟩]) (k r) := by
  generalize hq : Prog.call o k = q at h
  induction h with
  | refl p => exact hq ▸ .call r (.refl _)
  | call r' _ ih => exact .call r' (ih hq)

/-- Whoever answers, a program comes to an end. -/
theorem exists_runs (answers : ∀ o : S.Op, S.Answer o) (p : Prog S α) :
    ∃ tr a, Runs p tr a ∧ ∀ e ∈ tr, e.2 = answers e.1 := by
  induction p with
  | done a => exact ⟨[], a, .done a, fun _ h => absurd h List.not_mem_nil⟩
  | call o k ih =>
    obtain ⟨tr, a, hr, htr⟩ := ih (answers o)
    refine ⟨⟨o, answers o⟩ :: tr, a, .call (answers o) hr, fun e he => ?_⟩
    rcases List.mem_cons.mp he with rfl | he
    · rfl
    · exact htr e he

/-- The conversation with somebody who always answers an operation in the same way. -/
def converse (answers : ∀ o : S.Op, S.Answer o) : Prog S α → Trace S × α
  | done a => ([], a)
  | call o k =>
    let (tr, a) := converse answers (k (answers o))
    (⟨o, answers o⟩ :: tr, a)

theorem runs_converse (answers : ∀ o : S.Op, S.Answer o) (p : Prog S α) :
    Runs p (p.converse answers).1 (p.converse answers).2 := by
  induction p with
  | done a => exact .done a
  | call o k ih => exact .call (answers o) (ih (answers o))

theorem Holds.runs {p : Prog S α} {tr' : Trace S} {a : α} (h : Holds pre post tr p)
    (hr : Runs p tr' a) : post (tr ++ tr') a := by
  induction hr generalizing tr with
  | done a => simpa using h
  | call r _ ih => simpa using ih (h.2 r)

/-- What is left of a program is started after what was said. -/
theorem Holds.after {p q : Prog S α} {tr' : Trace S} (h : Holds pre post tr p)
    (ha : After p tr' q) : Holds pre post (tr ++ tr') q := by
  induction ha generalizing tr with
  | refl p => rwa [List.append_nil]
  | call r _ ih =>
    have hrest := ih (h.2 r)
    rwa [List.append_assoc] at hrest

theorem Holds.stuck {p : Prog S α} {tr' : Trace S} {o : S.Op} (h : Holds pre post tr p)
    (hs : Stuck o p tr') : pre (tr ++ tr') o := by
  induction hs generalizing tr with
  | here => simpa using h.1
  | call r _ ih => simpa using ih (h.2 r)

/-! ## Answers settled beforehand -/

/-- The result of a program, and how many operations were performed, if the `n`th operation ever
performed is answered by `answers n` and `n` were performed before. -/
def play (answers : ℕ → ∀ o : S.Op, S.Answer o) : ℕ → Prog S α → α × ℕ
  | n, done a => (a, n)
  | n, call o k => play answers (n + 1) (k (answers n o))

section Play

variable (answers : ℕ → ∀ o : S.Op, S.Answer o) (n : ℕ)

@[simp] theorem play_done (a : α) : play answers n (done a) = (a, n) := rfl

@[simp] theorem play_call (o : S.Op) (k : S.Answer o → Prog S α) :
    play answers n (call o k) = play answers (n + 1) (k (answers n o)) := rfl

theorem play_bind (p : Prog S β) (f : β → Prog S α) :
    play answers n (p >>= f) =
      play answers (play answers n p).2 (f (play answers n p).1) := by
  induction p generalizing n with
  | done b => rfl
  | call o k ih =>
    rw [call_bind, play_call, play_call]
    exact ih (answers n o) (n + 1)

variable {ε : Type}

theorem play_run_bind (p : ExceptT ε (Prog S) β) (f : β → ExceptT ε (Prog S) α) :
    play answers n (p >>= f).run =
      match play answers n p.run with
      | (.ok b, m) => play answers m (f b).run
      | (.error e, m) => (.error e, m) := by
  rw [ExceptT.run_bind, play_bind]
  rcases play answers n p.run with ⟨e | b, m⟩ <;> rfl

end Play

end Prog

end Program
