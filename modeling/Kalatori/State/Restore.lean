import Kalatori.Chain.Manager
import Kalatori.Lib.Program

/-!
# The task that restores the saved orders

The state handler spawns it at its start, with the orders that the database
listed.  It hands them to the chain manager one after the other and takes no
notice of the answers.
-/

namespace Kalatori

open Program

variable {lib : Libraries} {recipient : AccountId32}

inductive RestoreOp
  | send (request : ChainRequest)
  | await

/-- The operations of the task, with the answers that the state handler gets to its own. -/
abbrev RestoreSig : Signature where
  Op := RestoreOp
  Answer
    | .send _ => Bool
    | .await => Except ChainError Unit

def restorePort : ManagerPort (Prog RestoreSig) where
  res := .restore
  send request := Prog.perform (S := RestoreSig) (.send request)
  await := Prog.perform (S := RestoreSig) .await

/-- `for (order, order_details) in order_list` -/
def restore (lib : Libraries) (recipient : AccountId32) :
    List (String × OrderInfo) → Prog RestoreSig Unit
  | [] => return
  | (order, order_details) :: order_list => do
    let _ ← addInvoice lib restorePort order order_details recipient
    restore lib recipient order_list

/-! ## What it does -/

/-- A call of the chain manager was the last thing said, and it is still to be answered. -/
def asking (said : Trace RestoreSig) : Bool :=
  match said.getLast? with
  | some ⟨.send request, true⟩ => request.account.isSome
  | _ => false

/-- What the task may do: ask for the orders of the list to be watched, and wait for the answer
each time. -/
def Restores (lib : Libraries) (recipient : AccountId32) (order_list : List (String × OrderInfo))
    (said : Trace RestoreSig) : RestoreOp → Prop
  | .send request => asking said = false ∧
      ∃ order order_details w, (order, order_details) ∈ order_list ∧
        WatchAccount.new lib order order_details recipient .restore = .ok w ∧
        request = .watchAccount w
  | .await => asking said = true

/-- An order of the list was handed on, and if the manager was there then an answer came. -/
def HandedOn (said : Trace RestoreSig) (w : WatchAccount) : Prop :=
  ∃ before after, said = before ++ ⟨.send (.watchAccount w), false⟩ :: after ∨
    ∃ answer, said = before ++ ⟨.send (.watchAccount w), true⟩ :: ⟨.await, answer⟩ :: after

/-- Every order of a list with an account that can be read was handed on. -/
def AllHandedOn (lib : Libraries) (recipient : AccountId32)
    (order_list : List (String × OrderInfo)) (said : Trace RestoreSig) : Prop :=
  ∀ order order_details w, (order, order_details) ∈ order_list →
    WatchAccount.new lib order order_details recipient .restore = .ok w → HandedOn said w

/-- The task is through with its list. -/
structure Restored (lib : Libraries) (recipient : AccountId32)
    (order_list : List (String × OrderInfo)) (said : Trace RestoreSig) : Prop where
  handedOn : AllHandedOn lib recipient order_list said
  answered : asking said = false

theorem HandedOn.append {said : Trace RestoreSig} {w : WatchAccount} (h : HandedOn said w)
    (said' : Trace RestoreSig) : HandedOn (said ++ said') w := by
  obtain ⟨before, after, rfl | ⟨answer, rfl⟩⟩ := h
  · exact ⟨before, after ++ said', .inl (by simp)⟩
  · exact ⟨before, after ++ said', .inr ⟨answer, by simp⟩⟩

/-- The task hands on what is left of the list, after what it handed on already. -/
theorem restore_spec {order_list rest done : List (String × OrderInfo)}
    (hlist : order_list = done ++ rest) {said : Trace RestoreSig}
    (hdone : AllHandedOn lib recipient done said) (hasking : asking said = false) :
    Prog.Holds (Restores lib recipient order_list)
      (fun said _ => Restored lib recipient order_list said) said
      (restore lib recipient rest) := by
  induction rest generalizing done said with
  | nil =>
    rw [List.append_nil] at hlist
    exact ⟨hlist ▸ hdone, hasking⟩
  | cons entry rest ih =>
    obtain ⟨order, order_details⟩ := entry
    have hlist' : order_list = done ++ [(order, order_details)] ++ rest := by
      rw [hlist, List.append_assoc, List.singleton_append]
    have hmem : (order, order_details) ∈ order_list := by
      rw [hlist]
      exact List.mem_append_right _ List.mem_cons_self
    rw [restore, Prog.holds_bind, addInvoice, callManager]
    cases hw : WatchAccount.new lib order order_details recipient restorePort.res with
    | error e =>
      refine ih hlist' (fun o details w ho how => ?_) hasking
      rcases List.mem_append.mp ho with ho | ho
      · exact hdone o details w ho how
      · obtain ⟨rfl, rfl⟩ := Prod.mk.inj (List.mem_singleton.mp ho)
        cases hw.symm.trans how
    | ok w =>
      -- Whatever the answers are, this order is handed on before the next one.
      have hnext : ∀ seg : Trace RestoreSig, HandedOn (said ++ seg) w →
          AllHandedOn lib recipient (done ++ [(order, order_details)]) (said ++ seg) := by
        intro seg hon o details w' ho how
        rcases List.mem_append.mp ho with ho | ho
        · exact (hdone o details w' ho how).append seg
        · obtain ⟨rfl, rfl⟩ := Prod.mk.inj (List.mem_singleton.mp ho)
          obtain rfl : w' = w := Except.ok.inj (how.symm.trans hw)
          exact hon
      refine ⟨⟨hasking, order, order_details, w, hmem, hw, rfl⟩, fun taken => ?_⟩
      cases taken with
      | false => exact ih hlist' (hnext _ ⟨said, [], .inl rfl⟩) (by simp [asking])
      | true =>
        refine ⟨by simp [Restores, asking, ChainRequest.account], fun answer => ?_⟩
        have hon : HandedOn (said ++ [⟨.send (.watchAccount w), true⟩, ⟨.await, answer⟩]) w :=
          ⟨said, [], .inr ⟨answer, rfl⟩⟩
        have hall := ih hlist' (hnext _ hon) (by simp [asking])
        rw [← List.singleton_append, ← List.append_assoc] at hall
        exact hall

end Kalatori
