import Kalatori.Chain.Definitions
import Mathlib.Data.List.Perm.Basic

/-!
# The receiver of a transfer

`was_balance_received_at_account` goes through the fields of an event with a
candidate.  The first account in a field `to` becomes the candidate; a second one
clears it and ends the loop, so that a third cannot take its place.  What the loop
finds is therefore the only account among those that the fields name, and the
candidate counts as one of them.

* `only`: the element of a list that has just one.
* `foundReceiver_eq`: what the loop finds, from any candidate.
* `receiverMatch`: which fields matter to the match, and how.
-/

namespace Kalatori

/-! ## The only element of a list -/

section Only

variable {α : Type*}

/-- The element of a list that has just one. -/
def only : List α → Option α
  | [a] => some a
  | _ => none

@[simp] theorem only_nil : only ([] : List α) = none := rfl

@[simp] theorem only_singleton (a : α) : only [a] = some a := rfl

@[simp] theorem only_cons_cons (a b : α) (l : List α) : only (a :: b :: l) = none := rfl

theorem only_eq_some_iff {l : List α} {a : α} : only l = some a ↔ l = [a] := by
  match l with
  | [] | [_] | _ :: _ :: _ => simp

theorem eq_singleton_iff {l : List α} {a : α} : l = [a] ↔ l.length = 1 ∧ a ∈ l := by
  constructor
  · rintro rfl
    exact ⟨rfl, List.mem_singleton_self a⟩
  · rintro ⟨hlength, hmem⟩
    obtain ⟨b, rfl⟩ := List.length_eq_one_iff.mp hlength
    rw [List.mem_singleton.mp hmem]

end Only

/-! ## Fields that name a receiver -/

def ParsedData.isId : ParsedData → Bool
  | .id _ => true
  | _ => false

/-- The field is named `to` and carries an account. -/
def namesReceiver (field : FieldData) : Bool := field.1 = some "to" && field.2.isId

/-- The account that such a field carries. -/
def receiver : FieldData → Option AccountId32
  | (some "to", .id account) => some account
  | _ => none

/-- The accounts that the fields name as receivers. -/
def receivers (fields : List FieldData) : List AccountId32 := fields.filterMap receiver

theorem receiver_eq_some_iff {field : FieldData} {account : AccountId32} :
    receiver field = some account ↔ field = (some "to", .id account) := by
  unfold receiver
  split
  · simp
  · next hother =>
    refine iff_of_false nofun ?_
    rintro rfl
    exact hother account rfl

theorem isSome_receiver (field : FieldData) : (receiver field).isSome = namesReceiver field := by
  obtain ⟨name, data⟩ := field
  unfold receiver
  split
  · next heq =>
    obtain ⟨rfl, rfl⟩ := Prod.mk.inj heq
    rfl
  · next hother =>
    symm
    rw [namesReceiver, Option.isSome_none, Bool.and_eq_false_iff]
    by_cases hname : name = some "to"
    · right
      cases data with
      | id account => exact absurd (by rw [hname]) (hother account)
      | _ => rfl
    · left
      exact decide_eq_false hname

theorem length_receivers (fields : List FieldData) :
    (receivers fields).length = fields.countP namesReceiver := by
  rw [receivers, List.length_filterMap_eq_countP]
  exact congrArg (fields.countP ·) (funext isSome_receiver)

theorem mem_receivers {fields : List FieldData} {account : AccountId32} :
    account ∈ receivers fields ↔ (some "to", .id account) ∈ fields := by
  rw [receivers, List.mem_filterMap]
  constructor
  · rintro ⟨field, hmem, hfield⟩
    exact receiver_eq_some_iff.mp hfield ▸ hmem
  · exact fun hmem => ⟨_, hmem, rfl⟩

/-! ## The loop -/

/-- A turn of the loop. -/
theorem foundReceiver_cons (found_receiver : Option AccountId32) (field : FieldData)
    (fields : List FieldData) : foundReceiver found_receiver (field :: fields) =
      match receiver field with
      | none => foundReceiver found_receiver fields
      | some account =>
        if found_receiver.isNone then foundReceiver (some account) fields else none := by
  obtain ⟨name, data⟩ := field
  unfold receiver
  split
  · next heq =>
    split at heq
    · cases heq
    · next hother =>
      rw [foundReceiver]
      rintro account rfl rfl
      exact hother account rfl
  · next account heq =>
    split at heq
    · next hfield =>
      obtain ⟨rfl, rfl⟩ := Prod.mk.inj hfield
      obtain rfl := Option.some.inj heq
      rfl
    · cases heq

/-- **The loop finds the only receiver**, its candidate being one of them. -/
theorem foundReceiver_eq (found_receiver : Option AccountId32) (fields : List FieldData) :
    foundReceiver found_receiver fields = only (found_receiver.toList ++ receivers fields) := by
  induction fields generalizing found_receiver with
  | nil => cases found_receiver <;> rfl
  | cons field fields ih =>
    rw [foundReceiver_cons]
    cases hfield : receiver field with
    | none =>
      have hrest : receivers (field :: fields) = receivers fields := by
        rw [receivers, List.filterMap_cons_none hfield, receivers]
      rw [hrest]
      exact ih found_receiver
    | some account =>
      have hrest : receivers (field :: fields) = account :: receivers fields := by
        rw [receivers, List.filterMap_cons_some hfield, receivers]
      rw [hrest]
      cases found_receiver with
      | none => exact ih (some account)
      | some first => rfl

theorem wasBalanceReceivedAtAccount_iff {known_account : AccountId32} {fields : List FieldData} :
    wasBalanceReceivedAtAccount known_account fields = true ↔
      receivers fields = [known_account] := by
  have hfound : foundReceiver none fields = only (receivers fields) := foundReceiver_eq none fields
  rw [wasBalanceReceivedAtAccount, hfound, ← only_eq_some_iff]
  cases only (receivers fields) with
  | none => simp
  | some receiver => simp

/-- The match looks at the receivers only. -/
theorem wasBalanceReceivedAtAccount_congr {known_account : AccountId32}
    {fields fields' : List FieldData}
    (h : receivers fields = [known_account] ↔ receivers fields' = [known_account]) :
    wasBalanceReceivedAtAccount known_account fields =
      wasBalanceReceivedAtAccount known_account fields' := by
  rw [Bool.eq_iff_iff, wasBalanceReceivedAtAccount_iff, wasBalanceReceivedAtAccount_iff, h]

/-! ## The match -/

/-- **The receiver match is unambiguous.** -/
structure ReceiverMatch (known_account : AccountId32) (fields : List FieldData) : Prop where
  /-- It succeeds if just one field names a receiver, and that is the account. -/
  received : wasBalanceReceivedAtAccount known_account fields = true ↔
    fields.countP namesReceiver = 1 ∧ (some "to", .id known_account) ∈ fields
  /-- A field that names none never matters, be it unnamed or a field `to` with other data. -/
  others : ∀ before field after, fields = before ++ field :: after → namesReceiver field = false →
    wasBalanceReceivedAtAccount known_account fields =
      wasBalanceReceivedAtAccount known_account (before ++ after)
  /-- Nor does the order of the fields. -/
  order : ∀ fields', fields.Perm fields' →
    wasBalanceReceivedAtAccount known_account fields =
      wasBalanceReceivedAtAccount known_account fields'

/-- The receiver match is unambiguous for all fields and accounts. -/
theorem receiverMatch (known_account : AccountId32) (fields : List FieldData) :
    ReceiverMatch known_account fields where
  received := by
    rw [wasBalanceReceivedAtAccount_iff, eq_singleton_iff, length_receivers, mem_receivers]
  others := by
    rintro before field after rfl hfield
    have hnone : receiver field = none := by
      rw [← Option.not_isSome_iff_eq_none, isSome_receiver, hfield]
      exact Bool.false_ne_true
    have hsame : receivers (before ++ field :: after) = receivers (before ++ after) := by
      rw [receivers, List.filterMap_append, List.filterMap_cons_none hnone, receivers,
        List.filterMap_append]
    exact wasBalanceReceivedAtAccount_congr (by rw [hsame])
  order := by
    intro fields' hperm
    have hreceivers : (receivers fields).Perm (receivers fields') := hperm.filterMap receiver
    refine wasBalanceReceivedAtAccount_congr ⟨fun h => ?_, fun h => ?_⟩
    · rw [h] at hreceivers
      exact List.singleton_perm.mp hreceivers |>.symm
    · rw [h] at hreceivers
      exact List.perm_singleton.mp hreceivers

end Kalatori
