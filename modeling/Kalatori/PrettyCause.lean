import Mathlib.Algebra.Group.Nat.Defs
import Mathlib.Data.List.Basic
import Mathlib.Data.UInt
import Mathlib.Tactic.Common

/-!
# The printer of error sources

`pretty_cause` prints the chain of sources of an error: nothing if there is none,
one line for one, and a numbered list for more.  The number is a `u16`, and the
list is printed by two loops: the first one counts up to `OVERLOAD`, the second
one prints what is left without counting.  Each loop holds a cause that is still
to be printed, and the first one hands it to the second.

What is written goes into a string, so no writing fails.

* `printNumbered_eq`: the first loop, with the second one after it, prints every cause once.
* `prettyCause_complete`: the whole of what is printed, and that the counter does not overflow.
-/

namespace Kalatori

/-! ## Errors -/

/-- `dyn Error`: what an error displays, and its source. -/
inductive DynError
  | plain (text : String)
  | caused (text : String) (source : DynError)
  deriving DecidableEq

namespace DynError

def text : DynError → String
  | plain text | caused text _ => text

def source : DynError → Option DynError
  | plain _ => none
  | caused _ source => some source

/-- What an error and all that caused it display. -/
def texts : DynError → List String
  | plain text => [text]
  | caused text source => text :: source.texts

/-- What the causes of an error display: `c₀`, `c₁`, and so on. -/
def causes (e : DynError) : List String :=
  match e.source with
  | none => []
  | some source => source.texts

end DynError

/-! ## The printer -/

def OVERLOAD : UInt16 := 9999

/-- `u16::saturating_add` -/
def saturatingAdd (a b : UInt16) : UInt16 :=
  if 2 ^ 16 ≤ a.toNat + b.toNat then 2 ^ 16 - 1 else a + b

/-- `{number:>5}`: blanks on the left, up to a width of five. -/
def alignRight (number : String) : String :=
  String.ofList (List.replicate (5 - number.length) ' ') ++ number

/-- `print_cause`, after what has been written. -/
def printCause (f : String) (cause : DynError) (number : String) : String :=
  f ++ "\n" ++ alignRight number ++ ": " ++ cause.text ++ "."

/-- The second loop. -/
def printOverload (f : String) (another_cause : DynError) : String :=
  let f := printCause f another_cause ">9999"
  match another_cause with
  | .caused _ one_more_cause => printOverload f one_more_cause
  | .plain _ => f

/-- The first loop, with what follows it. -/
def printNumbered (f : String) (number : UInt16) (another_cause : DynError) : String :=
  if number = OVERLOAD then printOverload f another_cause
  else
    let number := saturatingAdd number 1
    let f := printCause f another_cause (toString number.toNat)
    match another_cause with
    | .caused _ one_more_cause => printNumbered f number one_more_cause
    | .plain _ => f

/-- `pretty_cause` -/
def prettyCause (e : DynError) : String :=
  match e.source with
  | none => ""
  | some cause =>
    let f := "\n\nCaused by:"
    match cause.source with
    | none => f ++ " " ++ cause.text ++ "."
    | some another_cause =>
      let number : UInt16 := 0
      printNumbered (printCause f cause (toString number.toNat)) number another_cause

/-- The first loop comes to its head with this counter and this cause, after it began with the
cause `first`. -/
inductive Head (first : DynError) : UInt16 → DynError → Prop
  | start : Head first 0 first
  | next {number : UInt16} {text : String} {one_more_cause : DynError}
      (h : Head first number (.caused text one_more_cause)) (hn : number ≠ OVERLOAD) :
      Head first (saturatingAdd number 1) one_more_cause

/-! ## What it should print -/

/-- The label of the cause with a number. -/
def causeLabel (k : ℕ) : String := if k ≤ 9999 then alignRight (toString k) else ">9999"

/-- The line of the cause with a number. -/
def causeLine (k : ℕ) (text : String) : String := "\n" ++ causeLabel k ++ ": " ++ text ++ "."

/-- The lines of causes that are numbered from `k` on. -/
def causeLines (k : ℕ) : List String → List String
  | [] => []
  | text :: texts => causeLine k text :: causeLines (k + 1) texts

theorem causeLines_eq_mapIdx (k : ℕ) (texts : List String) :
    causeLines k texts = texts.mapIdx fun i text => causeLine (k + i) text := by
  induction texts generalizing k with
  | nil => rfl
  | cons text texts ih =>
    have hshift : (fun i => causeLine (k + 1 + i)) = fun i => causeLine (k + (i + 1)) := by
      funext i
      rw [Nat.add_right_comm, Nat.add_assoc]
    rw [causeLines, ih, hshift, List.mapIdx_cons]
    rfl

/-! ## The loops -/

theorem toNat_OVERLOAD : OVERLOAD.toNat = 9999 := rfl

/-- Below the limit the counter goes up by one. -/
theorem toNat_saturatingAdd_one {number : UInt16} (h : number.toNat < 9999) :
    (saturatingAdd number 1).toNat = number.toNat + 1 := by
  have hone : (1 : UInt16).toNat = 1 := rfl
  have hroom : ¬2 ^ 16 ≤ number.toNat + (1 : UInt16).toNat := by
    rw [hone]
    omega
  rw [saturatingAdd, if_neg hroom, UInt16.toNat_add, hone]
  exact Nat.mod_eq_of_lt (by omega)

theorem lt_of_ne_OVERLOAD {number : UInt16} (h : number.toNat ≤ 9999) (hn : number ≠ OVERLOAD) :
    number.toNat < 9999 := by
  refine Nat.lt_of_le_of_ne h fun heq => hn ?_
  exact UInt16.toNat_inj.mp (heq.trans toNat_OVERLOAD.symm)

theorem alignRight_overload : alignRight ">9999" = ">9999" := by decide

theorem causeLine_overload {k : ℕ} (h : 9999 < k) (text : String) :
    causeLine k text = "\n" ++ ">9999" ++ ": " ++ text ++ "." := by
  have hlabel : causeLabel k = ">9999" := if_neg (Nat.not_le.mpr h)
  rw [causeLine, hlabel]

/-- Writing a numbered cause is writing its line. -/
theorem printCause_numbered (f : String) (cause : DynError) {k : ℕ} (h : k ≤ 9999) :
    printCause f cause (toString k) = f ++ causeLine k cause.text := by
  rw [printCause, causeLine, causeLabel, if_pos h]
  simp only [String.append_assoc]

theorem printCause_overload (f : String) (cause : DynError) {k : ℕ} (h : 9999 < k) :
    printCause f cause ">9999" = f ++ causeLine k cause.text := by
  rw [printCause, causeLine_overload h, alignRight_overload]
  simp only [String.append_assoc]

/-- The second loop prints the causes that are left, each beyond the limit. -/
theorem printOverload_eq (f : String) (cause : DynError) {k : ℕ} (h : 9999 < k) :
    printOverload f cause = f ++ String.join (causeLines k cause.texts) := by
  induction cause generalizing f k with
  | plain text =>
    rw [printOverload, printCause_overload f _ h]
    simp only [DynError.texts, DynError.text, causeLines, String.join_cons, String.join_nil,
      String.append_empty]
  | caused text source ih =>
    rw [printOverload, printCause_overload f _ h, ih _ (Nat.lt_succ_of_lt h), DynError.texts,
      causeLines, String.join_cons, String.append_assoc]
    rfl

/-- **Every cause is printed once**, across the change from one loop to the other. -/
theorem printNumbered_eq (f : String) (cause : DynError) {number : UInt16}
    (h : number.toNat ≤ 9999) :
    printNumbered f number cause =
      f ++ String.join (causeLines (number.toNat + 1) cause.texts) := by
  induction cause generalizing f number with
  | plain text =>
    rw [printNumbered]
    split
    · rename_i hn
      have hk : 9999 < number.toNat + 1 := by
        rw [hn, toNat_OVERLOAD]
        omega
      exact printOverload_eq f _ hk
    · rename_i hn
      have hlt : number.toNat < 9999 := lt_of_ne_OVERLOAD h hn
      simp only [toNat_saturatingAdd_one hlt]
      rw [printCause_numbered f _ hlt]
      simp only [DynError.texts, DynError.text, causeLines, String.join_cons, String.join_nil,
        String.append_empty]
  | caused text source ih =>
    rw [printNumbered]
    split
    · rename_i hn
      have hk : 9999 < number.toNat + 1 := by
        rw [hn, toNat_OVERLOAD]
        omega
      exact printOverload_eq f _ hk
    · rename_i hn
      have hlt : number.toNat < 9999 := lt_of_ne_OVERLOAD h hn
      have hnext : (saturatingAdd number 1).toNat = number.toNat + 1 := toNat_saturatingAdd_one hlt
      simp only [hnext]
      have hbound : (saturatingAdd number 1).toNat ≤ 9999 := by
        rw [hnext]
        exact hlt
      rw [ih _ hbound, hnext, printCause_numbered f _ hlt, DynError.texts, causeLines,
        String.join_cons, String.append_assoc]
      rfl

/-- At its head the counter has not passed the limit. -/
theorem Head.toNat_le {first cause : DynError} {number : UInt16} (h : Head first number cause) :
    number.toNat ≤ 9999 := by
  induction h with
  | start => exact Nat.zero_le _
  | next _ hn ih =>
    have hlt := lt_of_ne_OVERLOAD ih hn
    rw [toNat_saturatingAdd_one hlt]
    exact hlt

/-- **The printer of error sources is complete.**  It prints nothing without a cause, one line for
one cause, and for more a line for each, in order, with its number while that has four digits; and
an addition to its counter neither wraps nor saturates. -/
theorem prettyCause_complete (e : DynError) :
    (e.causes = [] → prettyCause e = "") ∧
    (∀ c₀, e.causes = [c₀] → prettyCause e = "\n\nCaused by: " ++ c₀ ++ ".") ∧
    (2 ≤ e.causes.length → prettyCause e = "\n\nCaused by:" ++
      String.join (e.causes.mapIdx fun k c => "\n" ++
        (if k ≤ 9999 then alignRight (toString k) else ">9999") ++ ": " ++ c ++ ".")) ∧
    ∀ first number cause, Head first number cause → number ≠ OVERLOAD →
      (saturatingAdd number 1).toNat = number.toNat + 1 ∧ number.toNat + 1 < 2 ^ 16 := by
  refine ⟨fun h => ?_, fun c₀ h => ?_, fun h => ?_, fun first number cause h hn => ?_⟩
  · match e, h with
    | .plain text, _ => rfl
    | .caused text (.plain text'), h => cases h
    | .caused text (.caused text' source), h => cases h
  · match e, h with
    | .plain text, h => cases h
    | .caused text (.plain text'), h =>
      obtain rfl : text' = c₀ := List.singleton_inj.mp h
      rfl
    | .caused text (.caused text' (.plain _)), h => cases (List.cons.inj h).2
    | .caused text (.caused text' (.caused _ _)), h => cases (List.cons.inj h).2
  · match e, h with
    | .plain text, h => exact absurd h (show ¬2 ≤ 0 by decide)
    | .caused text (.plain text'), h => exact absurd h (show ¬2 ≤ 1 by decide)
    | .caused text (.caused text' source), _ =>
      have hlines := causeLines_eq_mapIdx 0 (text' :: source.texts)
      simp only [Nat.zero_add] at hlines
      have hprint : prettyCause (.caused text (.caused text' source)) =
          printNumbered (printCause "\n\nCaused by:" (.caused text' source) (toString 0)) 0
            source := rfl
      have hzero : (0 : UInt16).toNat = 0 := rfl
      rw [hprint, printNumbered_eq _ _ (hzero ▸ Nat.zero_le _),
        printCause_numbered _ _ (Nat.zero_le _), String.append_assoc, ← String.join_cons, hzero]
      exact congrArg (fun lines => "\n\nCaused by:" ++ String.join lines) hlines
  · have hlt := lt_of_ne_OVERLOAD h.toNat_le hn
    refine ⟨toNat_saturatingAdd_one hlt, ?_⟩
    omega

example : prettyCause (.caused "a" (.caused "b" (.caused "c" (.plain "d")))) =
    "\n\nCaused by:\n    0: b.\n    1: c.\n    2: d." := by decide

end Kalatori
