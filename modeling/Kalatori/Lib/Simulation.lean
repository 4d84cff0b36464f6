import Kalatori.Lib.Transition

/-!
# Refinement by forward simulation

One system refines another if what is seen of each of its runs is a run of the
other.  `Simulates` is the usual reason: a relation between the states of the two
that holds at the start, and that every step keeps, where a step that is seen is
answered with a step of the upper system and any other step with none.

The relation may look at the history of the lower run, so an upper state may
remember what no lower state does.

* `Simulates.reach`: a simulation makes a refinement.
-/

namespace Transition

variable {σ τ ε δ : Type*}

/-- A forward simulation.  `view` reads a step of the lower system as one of the upper. -/
structure Simulates (step : σ → ε → σ → Prop) (allow : List ε → σ → ε → Prop) (init : σ → Prop)
    (step' : τ → δ → τ → Prop) (init' : τ → Prop) (view : ε → Option δ)
    (R : List ε → σ → τ → Prop) : Prop where
  start : ∀ s, init s → ∃ t, init' t ∧ R [] s t
  seen : ∀ h s e s' t l, Reach step allow init h s → allow h s e → step s e s' → R h s t →
    view e = some l → ∃ t', step' t l t' ∧ R (h ++ [e]) s' t'
  unseen : ∀ h s e s' t, Reach step allow init h s → allow h s e → step s e s' → R h s t →
    view e = none → R (h ++ [e]) s' t

namespace Simulates

variable {step : σ → ε → σ → Prop} {allow : List ε → σ → ε → Prop} {init : σ → Prop}
  {step' : τ → δ → τ → Prop} {init' : τ → Prop} {view : ε → Option δ}
  {R : List ε → σ → τ → Prop}

/-- What is seen of a run is a run, which ends in a related state. -/
theorem reach (sim : Simulates step allow init step' init' view R) {h : List ε} {s : σ}
    (run : Reach step allow init h s) :
    ∃ t, Reach step' always init' (h.filterMap view) t ∧ R h s t := by
  refine run.invariant
    (P := fun h s => ∃ t, Reach step' always init' (h.filterMap view) t ∧ R h s t) ?_ ?_
  · intro s hs
    obtain ⟨t, ht, hrel⟩ := sim.start s hs
    exact ⟨t, .start ht, hrel⟩
  · rintro h s e s' run ⟨t, hreach, hrel⟩ hallow hs
    rw [List.filterMap_append]
    cases he : view e with
    | none =>
      refine ⟨t, ?_, sim.unseen h s e s' t run hallow hs hrel he⟩
      rw [List.filterMap_cons_none he, List.filterMap_nil, List.append_nil]
      exact hreach
    | some l =>
      obtain ⟨t', hstep, hrel'⟩ := sim.seen h s e s' t l run hallow hs hrel he
      refine ⟨t', ?_, hrel'⟩
      rw [List.filterMap_cons_some he, List.filterMap_nil]
      exact hreach.next trivial hstep

end Simulates

end Transition
