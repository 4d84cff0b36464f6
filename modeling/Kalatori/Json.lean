import Mathlib.Data.Rat.Defs
import Mathlib.Tactic.Common

/-!
# JSON values

`serde_json::Value`, which is what a node answers with.  A number that is no
integer of 64 bits is kept as the finite number it stands for, so that the
equality of values here is the equality of the library, which does not tell the
two zeros apart.
-/

namespace Kalatori

inductive Json
  | null
  | bool (b : Bool)
  | posInt (n : UInt64)
  | negInt (n : Int)
  | float (q : ℚ)
  | string (s : String)
  | array (items : List Json)
  | object (entries : List (String × Json))

namespace Json

/-- `Map::get` -/
def get (entries : List (String × Json)) (key : String) : Option Json :=
  (entries.find? fun entry => entry.1 = key).map Prod.snd

mutual

/-- The equality of the library. -/
protected def beq : Json → Json → Bool
  | null, null => true
  | bool a, bool b => a == b
  | posInt a, posInt b => a == b
  | negInt a, negInt b => a == b
  | float a, float b => a == b
  | string a, string b => a == b
  | array a, array b => Json.beqItems a b
  | object a, object b => Json.beqEntries a b
  | _, _ => false

protected def beqItems : List Json → List Json → Bool
  | [], [] => true
  | a :: as, b :: bs => Json.beq a b && Json.beqItems as bs
  | _, _ => false

protected def beqEntries : List (String × Json) → List (String × Json) → Bool
  | [], [] => true
  | (k, a) :: as, (k', b) :: bs => k == k' && Json.beq a b && Json.beqEntries as bs
  | _, _ => false

end

instance : BEq Json := ⟨Json.beq⟩

mutual

theorem eq_of_beq : ∀ {a b : Json}, Json.beq a b = true → a = b
  | null, b, h => by cases b <;> simp_all [Json.beq]
  | bool a, b, h => by cases b <;> simp_all [Json.beq]
  | posInt a, b, h => by cases b <;> simp_all [Json.beq]
  | negInt a, b, h => by cases b <;> simp_all [Json.beq]
  | float a, b, h => by cases b <;> simp_all [Json.beq]
  | string a, b, h => by cases b <;> simp_all [Json.beq]
  | array a, b, h => by
    cases b with
    | array b =>
      rw [Json.beq] at h
      rw [eq_of_beqItems h]
    | _ => simp [Json.beq] at h
  | object a, b, h => by
    cases b with
    | object b =>
      rw [Json.beq] at h
      rw [eq_of_beqEntries h]
    | _ => simp [Json.beq] at h

theorem eq_of_beqItems : ∀ {a b : List Json}, Json.beqItems a b = true → a = b
  | [], b, h => by cases b <;> simp_all [Json.beqItems]
  | a :: as, b, h => by
    cases b with
    | nil => simp [Json.beqItems] at h
    | cons b bs =>
      rw [Json.beqItems, Bool.and_eq_true] at h
      rw [eq_of_beq h.1, eq_of_beqItems h.2]

theorem eq_of_beqEntries : ∀ {a b : List (String × Json)}, Json.beqEntries a b = true → a = b
  | [], b, h => by cases b <;> simp_all [Json.beqEntries]
  | (k, a) :: as, b, h => by
    cases b with
    | nil => simp [Json.beqEntries] at h
    | cons b bs =>
      obtain ⟨k', b⟩ := b
      rw [Json.beqEntries, Bool.and_eq_true, Bool.and_eq_true] at h
      rw [beq_iff_eq.mp h.1.1, eq_of_beq h.1.2, eq_of_beqEntries h.2]

end

/-- Values that the library does not tell apart are the same. -/
theorem eq_of_bne {a b : Json} (h : (a != b) = false) : a = b := by
  have hbeq : Json.beq a b = true := by
    cases heq : Json.beq a b with
    | true => rfl
    | false => exact absurd h (by simp [bne, BEq.beq, heq])
  exact eq_of_beq hbeq

end Json

end Kalatori
