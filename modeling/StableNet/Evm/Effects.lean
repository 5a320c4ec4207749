import StableNet.Evm.Interpreter
import StableNet.Evm.Journal

/-! What the steps of the machine do to the objects and the logs, and that the journal undoes them. -/
namespace StableNet.Evm
open Chain (Address Bytes)
open Lib StateDB State

namespace StateDB
variable {db : StateDB} {a b : Address} {v : Word} {key : Slot} {f : Flag}

lemma obj_addBalance : (db.addBalance a v).obj b =
    if b=a then { db.obj a with balance := (db.obj a).balance+v } else db.obj b := by
  rw [toState_addBalance,obj_put]

lemma obj_subBalance : (db.subBalance a v).obj b =
    if b=a then { db.obj a with balance := (db.obj a).balance-v } else db.obj b := by
  rw [toState_subBalance,obj_put]

lemma obj_setNonce {n : BitVec 64} : (db.setNonce a n).obj b =
    if b=a then { db.obj a with nonce := n } else db.obj b := by
  rw [toState_setNonce,obj_put]

lemma obj_setCode {c : Bytes} : (db.setCode a c).obj b = if b=a then { db.obj a with code := c } else db.obj b := by
  rw [toState_setCode,obj_put]

lemma obj_setState : (db.setState a key v).obj b =
    if b=a then { db.obj a with storage := Function.update (db.obj a).storage key v }
    else db.obj b := by
  rw [toState_setState,obj_put]

lemma obj_setFlag : (db.setFlag f a).obj b =
    if b=a then { db.obj a with extra := Flag.setBit (db.obj a).extra f.mask } else db.obj b := by
  rw [toState_setFlag,obj_put]

lemma obj_clearFlag : (db.clearFlag f a).obj b =
    if b=a then { db.obj a with extra := Flag.clearBit (db.obj a).extra f.mask } else db.obj b := by
  rw [toState_clearFlag,obj_put]

lemma obj_createAccount : (db.createAccount a).obj b =
    if b=a then { StateObject.new with balance := (db.obj a).balance } else db.obj b := by
  rw [toState_createAccount,obj_put]

@[simp]
lemma obj_addLog {log : Log} : (db.addLog log).obj b = db.obj b := rfl

@[simp]
lemma obj_setTransientState : (db.setTransientState a key v).obj b = db.obj b := by
  rw [State.obj,objects_setTransientState,State.obj]

lemma logs_of_put {s : State} {o : StateObject} (h : db.toState = s.put a o) : db.logs=s.logs := by
  rw [h]
  rfl

@[simp]
lemma logs_addBalance : (db.addBalance a v).logs = db.logs := logs_of_put toState_addBalance

@[simp]
lemma logs_subBalance : (db.subBalance a v).logs = db.logs := logs_of_put toState_subBalance

@[simp]
lemma logs_setNonce {n : BitVec 64} : (db.setNonce a n).logs = db.logs := logs_of_put toState_setNonce

@[simp]
lemma logs_setCode {c : Bytes} : (db.setCode a c).logs = db.logs := logs_of_put toState_setCode

@[simp]
lemma logs_setState : (db.setState a key v).logs = db.logs := logs_of_put toState_setState

@[simp]
lemma logs_setFlag : (db.setFlag f a).logs = db.logs := logs_of_put toState_setFlag

@[simp]
lemma logs_clearFlag : (db.clearFlag f a).logs = db.logs := logs_of_put toState_clearFlag

@[simp]
lemma logs_createAccount : (db.createAccount a).logs = db.logs := logs_of_put toState_createAccount

lemma obj_of_not_exist (h : db.exist a=false) : db.obj a = .new := by
  rw [exist,Option.isSome_eq_false_iff,Option.isNone_iff_eq_none] at h
  rw [State.obj,show db.objects.lookup a=none from h]
  rfl

lemma obj_selfdestruct6780 (h : db.exist a=true) : (db.selfdestruct6780 a).obj b =
    if b=a ∧ (db.obj a).created=true then { db.obj a with selfDestructed := true, balance := 0 }
    else db.obj b := by
  rw [toState_selfdestruct6780 h]
  by_cases hc : (db.obj a).created=true
  · rw [if_pos hc,obj_put]
    simp [hc]
  · simp [hc]

end StateDB

section Transfer
variable {vm : Vm} {db : StateDB} {s r a : Address} {v : Word}

lemma extends_transfer : db.Extends (transfer db s r v) := extends_subBalance.trans extends_addBalance

lemma obj_transfer : (transfer db s r v).obj a = { db.obj a with
    balance := (db.obj a).balance-(if a=s then v else 0)+(if a=r then v else 0) } := by
  rw [transfer,obj_addBalance,obj_subBalance,obj_subBalance]
  by_cases hr : a = r <;> by_cases hs : a=s
  · subst hr hs
    simp
  · subst hr
    simp [hs]
  · subst hs
    simp [hr]
  · simp [hr,hs]

lemma exist_transfer : (transfer db s r v).exist s=true := by
  have hsub : (db.subBalance s v).objects.lookup s =
      some { db.obj s with balance := (db.obj s).balance-v } := by
    rw [toState_subBalance,lookup_put,if_pos rfl]
  rw [StateDB.exist,StateDB.getStateObject,transfer,toState_addBalance,lookup_put]
  split
  · rfl
  · rw [hsub]
    rfl

lemma logs_transfer : (transfer db s r v).logs = db.logs := by
  rw [transfer,logs_addBalance,logs_subBalance]

/-- A transfer of nothing is not logged. -/
def Vm.valueLogs (vm : Vm) (s r : Address) (v : Word) : List Log :=
  if v≠0 then [vm.transferLog s r v] else []

lemma extends_addTransferLog : db.Extends (vm.addTransferLog db s r v) := extends_addLog

end Transfer

namespace Vm
variable {vm : Vm} {w : World} {a : Address}

lemma extends_refunds (ch : Charge) (db : StateDB) : db.Extends (refunds ch db) := by
  have hadd : db.Extends (if ch.addRefund=0 then db else db.addRefund ch.addRefund) := by
    split
    · exact StateDB.Extends.refl db
    · exact extends_addRefund
  rw [refunds]
  split
  · exact hadd
  · exact hadd.trans extends_subRefund

@[simp]
lemma obj_refunds (ch : Charge) (db : StateDB) : (refunds ch db).obj a = db.obj a := by
  rw [refunds]
  split <;> split <;> rfl

@[simp]
lemma logs_refunds (ch : Charge) (db : StateDB) : (refunds ch db).logs = db.logs := by
  rw [refunds]
  split <;> split <;> rfl

section CallEnter
variable {caller addr : Address} {value : Word}

lemma extends_callEnter : w.db.Extends (vm.callEnter caller addr value w).db := by
  have hcreate : w.db.Extends (if w.db.exist addr then w.db else w.db.createAccount addr) := by
    split
    · exact StateDB.Extends.refl _
    · exact extends_createAccount
  have htransfer := hcreate.trans (extends_transfer (s := caller) (r := addr) (v := value))
  rw [callEnter]
  dsimp only
  split
  · exact htransfer.trans extends_addTransferLog
  · exact htransfer

lemma obj_callEnter : (vm.callEnter caller addr value w).db.obj a = { w.db.obj a with
    balance := (w.db.obj a).balance-(if a=caller then value else 0) +
      (if a=addr then value else 0) } := by
  have hcreate : (if w.db.exist addr then w.db else w.db.createAccount addr).obj a = w.db.obj a := by
    split
    · rfl
    · rename_i h
      have hnew := obj_of_not_exist (Bool.eq_false_iff.mpr h)
      rw [obj_createAccount]
      split
      · subst a
        rw [hnew]
      · rfl
  rw [← hcreate,← obj_transfer,callEnter]
  dsimp only
  split <;> rfl

lemma logs_callEnter : (vm.callEnter caller addr value w).db.logs = w.db.logs++vm.valueLogs caller addr value := by
  have hcreate : (if w.db.exist addr then w.db else w.db.createAccount addr).logs = w.db.logs := by
    split
    · rfl
    · exact logs_createAccount
  rw [callEnter,valueLogs]
  dsimp only
  split
  · rw [addTransferLog,StateDB.addLog,StateDB.change,logs_transfer,hcreate]
  · rw [logs_transfer,hcreate,List.append_nil]

end CallEnter

section CreateEnter
variable {caller address : Address} {value : Word}

lemma extends_createEnter : w.db.Extends (vm.createEnter caller address value w).db := by
  have htransfer := (extends_createAccount.trans extends_setNonce).trans
    (@extends_transfer ((w.db.createAccount address).setNonce address 1) caller address value)
  rw [createEnter]
  dsimp only
  split
  · exact htransfer.trans extends_addTransferLog
  · exact htransfer

theorem obj_createEnter : (vm.createEnter caller address value w).db.obj a =
    { (if a=address then { StateObject.new with nonce := 1 } else w.db.obj a) with
      balance := (w.db.obj a).balance-(if a=caller then value else 0) +
        (if a=address then value else 0) } := by
  have hcreate : ((w.db.createAccount address).setNonce address 1).obj a =
      { (if a=address then { StateObject.new with nonce := 1 } else w.db.obj a) with
        balance := (w.db.obj a).balance } := by
    rw [obj_setNonce,obj_createAccount,obj_createAccount,if_pos rfl]
    split
    · subst a
      rfl
    · rfl
  have htransfer := @obj_transfer ((w.db.createAccount address).setNonce address 1) caller address a value
  rw [hcreate] at htransfer
  rw [← htransfer,createEnter]
  dsimp only
  split <;> rfl

lemma logs_createEnter :
    (vm.createEnter caller address value w).db.logs = w.db.logs++vm.valueLogs caller address value := by
  have hcreate : ((w.db.createAccount address).setNonce address 1).logs = w.db.logs := by
    rw [logs_setNonce,logs_createAccount]
  rw [createEnter,valueLogs]
  dsimp only
  split
  · rw [addTransferLog,StateDB.addLog,StateDB.change,logs_transfer,hcreate]
  · rw [logs_transfer,hcreate,List.append_nil]

end CreateEnter

section Selfdestruct
variable {self beneficiary : Address}

lemma extends_selfdestruct6780 : w.db.Extends (vm.selfdestruct6780 self beneficiary w).db := by
  have htransfer := @extends_transfer w.db self beneficiary (w.db.getBalance self)
  rw [selfdestruct6780]
  dsimp only
  split
  · exact (htransfer.trans extends_addTransferLog).trans StateDB.extends_selfdestruct6780
  · exact htransfer.trans StateDB.extends_selfdestruct6780

/-- The balance goes to the beneficiary; what an object created in the transaction then has is lost. -/
theorem obj_selfdestruct6780 : (vm.selfdestruct6780 self beneficiary w).db.obj a =
    if a=self ∧ (w.db.obj self).created=true then { w.db.obj self with selfDestructed := true, balance := 0 }
    else { w.db.obj a with
      balance := (w.db.obj a).balance-(if a=self then (w.db.obj self).balance else 0) +
        (if a=beneficiary then (w.db.obj self).balance else 0) } := by
  have hmoved (db : StateDB) (hexist : db.exist self=true)
      (hobj : ∀ b, db.obj b = (transfer w.db self beneficiary (w.db.obj self).balance).obj b) :
      (db.selfdestruct6780 self).obj a =
        if a=self ∧ (w.db.obj self).created=true then
          { w.db.obj self with selfDestructed := true, balance := 0 }
        else (transfer w.db self beneficiary (w.db.obj self).balance).obj a := by
    rw [StateDB.obj_selfdestruct6780 hexist,hobj,hobj,obj_transfer]
  rw [← obj_transfer,selfdestruct6780,StateDB.getBalance_eq]
  dsimp only
  split
  · exact hmoved _ exist_transfer fun b => rfl
  · exact hmoved _ exist_transfer fun b => rfl

lemma logs_selfdestruct6780 : (vm.selfdestruct6780 self beneficiary w).db.logs =
    w.db.logs++vm.valueLogs self beneficiary (w.db.obj self).balance := by
  have hlogs (db : StateDB) (hexist : db.exist self=true) : (db.selfdestruct6780 self).logs = db.logs := by
    rw [toState_selfdestruct6780 hexist]
    split <;> rfl
  rw [selfdestruct6780,valueLogs,← StateDB.getBalance_eq]
  dsimp only
  split
  · rw [hlogs (vm.addTransferLog _ _ _ _) exist_transfer,addTransferLog,StateDB.addLog,StateDB.change,logs_transfer]
  · rw [hlogs _ exist_transfer,logs_transfer,List.append_nil]

end Selfdestruct

section Native
variable {db : StateDB} {src dst : Address} {amount : Word}

lemma extends_nativeTransfer : db.Extends (vm.nativeTransfer db src dst amount) := by
  have hsub : db.Extends (if src≠0 then db.subBalance src amount else db) := by
    split
    · exact extends_subBalance
    · exact StateDB.Extends.refl db
  rw [nativeTransfer]
  split
  · exact extends_addTransferLog
  · exact (hsub.trans extends_addBalance).trans extends_addTransferLog

lemma obj_nativeTransfer : (vm.nativeTransfer db src dst amount).obj a = { db.obj a with
    balance := (db.obj a).balance-(if a=src ∧ src≠0 then amount else 0) +
      (if a=dst then amount else 0) } := by
  rw [nativeTransfer,addTransferLog,obj_addLog]
  by_cases hv : amount=0
  · subst hv
    simp
  · rw [if_neg hv]
    by_cases hsrc : src=0
    · rw [if_neg (not_not.mpr hsrc),obj_addBalance]
      by_cases hd : a=dst
      · subst hd
        simp [hsrc]
      · simp [hd,hsrc]
    · rw [if_pos hsrc]
      simp only [and_iff_left hsrc]
      exact obj_transfer

lemma logs_nativeTransfer : (vm.nativeTransfer db src dst amount).logs = db.logs++[vm.transferLog src dst amount] := by
  have hmoved : (if amount=0 then db
      else (if src≠0 then db.subBalance src amount else db).addBalance dst amount).logs = db.logs := by
    split
    · rfl
    · rw [logs_addBalance]
      split
      · exact logs_subBalance
      · rfl
  rw [nativeTransfer,addTransferLog,StateDB.addLog,StateDB.change]
  exact congrArg (·++[vm.transferLog src dst amount]) hmoved

end Native

end Vm

lemma NativeCall.extends_apply (vm : Vm) (db : StateDB) (call : NativeCall) : db.Extends (call.apply vm db) := by
  cases call with
  | mint | transfer => exact Vm.extends_nativeTransfer
  | burn => exact extends_subBalance.trans extends_addTransferLog
  | setFlag => exact extends_setFlag
  | clearFlag => exact extends_clearFlag
  | hasFlag => exact StateDB.Extends.refl db

end StableNet.Evm
