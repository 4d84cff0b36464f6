import Kalatori.Lib.Transition
import Mathlib.Data.List.Chain
import Mathlib.Logic.Function.Basic

/-!
# A book of what is owed

An entry is opened under a key and on some terms, its terms may be renewed while
it is open, it is paid, and then it is settled on the terms that it had when it
was paid.  What may follow what is a relation on the terms.

Each key has a history of its own, which is a part of just one shape: opened,
renewed any number of times, paid, settled.

* `Step`, `BookRun`: the book, and the runs that start with an empty one.
* `Story`: the shape of the history of a key, with the entry that it leads to.
* `BookRun.story`: the history of every key has the shape.
-/

namespace Book

open Transition

/-! ## The book -/

inductive Stage
  | open
  | paid
  | settled
  deriving DecidableEq

structure Entry (τ : Type*) where
  terms : τ
  stage : Stage

inductive Label (κ τ : Type*)
  | opened (key : κ) (terms : τ)
  | renewed (key : κ) (terms : τ)
  | paid (key : κ)
  | settled (key : κ) (terms : τ)

variable {κ τ : Type*}

def Label.key : Label κ τ → κ
  | opened key _ | renewed key _ | paid key | settled key _ => key

section Steps

variable [DecidableEq κ]

/-- A step of the book.  `renews` tells which terms may follow which. -/
inductive Step (renews : τ → τ → Prop) :
    (κ → Option (Entry τ)) → Label κ τ → (κ → Option (Entry τ)) → Prop
  | opened {book : κ → Option (Entry τ)} {key : κ} (terms : τ) (h : book key = none) :
      Step renews book (.opened key terms) (Function.update book key (some ⟨terms, .open⟩))
  | renewed {book : κ → Option (Entry τ)} {key : κ} {old : τ} (terms : τ)
      (h : book key = some ⟨old, .open⟩) (hr : renews old terms) :
      Step renews book (.renewed key terms) (Function.update book key (some ⟨terms, .open⟩))
  | paid {book : κ → Option (Entry τ)} {key : κ} {terms : τ}
      (h : book key = some ⟨terms, .open⟩) :
      Step renews book (.paid key) (Function.update book key (some ⟨terms, .paid⟩))
  | settled {book : κ → Option (Entry τ)} {key : κ} {terms : τ}
      (h : book key = some ⟨terms, .paid⟩) :
      Step renews book (.settled key terms) (Function.update book key (some ⟨terms, .settled⟩))

abbrev BookRun (renews : τ → τ → Prop) : List (Label κ τ) → (κ → Option (Entry τ)) → Prop :=
  Reach (Step renews) always (· = fun _ => none)

end Steps

/-! ## The history of a key -/

/-- An entry is opened on the first of the terms, and renewed with the others in turn. -/
def written (key : κ) : List τ → List (Label κ τ)
  | [] => []
  | terms :: rest => .opened key terms :: rest.map (.renewed key)

/-- How an entry came to its stage. -/
def closing (key : κ) (terms : τ) : Stage → List (Label κ τ)
  | .open => []
  | .paid => [.paid key]
  | .settled => [.paid key, .settled key terms]

/-- **What can have happened to a key**, and the entry that is left. -/
inductive Story (renews : τ → τ → Prop) (key : κ) :
    List (Label κ τ) → Option (Entry τ) → Prop
  | unknown : Story renews key [] none
  | known (earlier : List τ) (terms : τ) (stage : Stage)
      (hchain : (earlier ++ [terms]).IsChain renews) :
      Story renews key (written key (earlier ++ [terms]) ++ closing key terms stage)
        (some ⟨terms, stage⟩)

theorem written_concat (key : κ) {all : List τ} (hne : all ≠ []) (terms : τ) :
    written key (all ++ [terms]) = written key all ++ [.renewed key terms] := by
  cases all with
  | nil => exact absurd rfl hne
  | cons first rest => simp [written]

variable [DecidableEq κ] {renews : τ → τ → Prop}

/-- A label continues the story of its key. -/
theorem Step.story {book book' : κ → Option (Entry τ)} {l : Label κ τ}
    (hs : Step renews book l book') {labels : List (Label κ τ)}
    (h : Story renews l.key labels (book l.key)) :
    Story renews l.key (labels ++ [l]) (book' l.key) := by
  cases hs with
  | opened terms hnone =>
    simp only [Label.key, hnone, Function.update_self] at h ⊢
    cases h with
    | unknown => exact .known [] terms .open (List.isChain_singleton terms)
  | @renewed key old terms hold hr =>
    simp only [Label.key, hold, Function.update_self] at h ⊢
    cases h with
    | known earlier _ _ hchain =>
      have hne : earlier ++ [old] ≠ [] := by simp
      rw [closing, List.append_nil, ← written_concat key hne terms,
        ← List.append_nil (written key _)]
      refine .known (earlier ++ [old]) terms .open ?_
      rw [List.isChain_append]
      refine ⟨hchain, List.isChain_singleton terms, ?_⟩
      simpa using hr
  | paid hopen =>
    simp only [Label.key, hopen, Function.update_self] at h ⊢
    cases h with
    | known earlier _ _ hchain =>
      rw [closing, List.append_nil]
      exact .known earlier _ .paid hchain
  | settled hpaid =>
    simp only [Label.key, hpaid, Function.update_self] at h ⊢
    cases h with
    | known earlier _ _ hchain =>
      rw [List.append_assoc]
      exact .known earlier _ .settled hchain

theorem Step.other {book book' : κ → Option (Entry τ)} {l : Label κ τ}
    (hs : Step renews book l book') {key : κ} (hkey : l.key ≠ key) : book' key = book key := by
  cases hs with
  | opened | renewed | paid | settled => exact Function.update_of_ne hkey.symm _ _

/-- **The history of a key has the shape.** -/
theorem BookRun.story {h : List (Label κ τ)} {book : κ → Option (Entry τ)}
    (run : BookRun renews h book) (key : κ) :
    Story renews key (h.filter fun l => l.key = key) (book key) := by
  refine run.invariant
    (P := fun h book => Story renews key (h.filter fun l => l.key = key) (book key)) ?_ ?_
  · rintro book rfl
    exact .unknown
  · rintro h book l book' - ih - hs
    rw [List.filter_append]
    by_cases hkey : l.key = key
    · subst hkey
      rw [List.filter_cons_of_pos (by simp), List.filter_nil]
      exact hs.story ih
    · rw [List.filter_cons_of_neg (by simpa using hkey), List.filter_nil, List.append_nil,
        hs.other hkey]
      exact ih

end Book
