import Mathlib.Data.BitVec
import StableNet.Evm.StateDB

/-! What the setters of the state do: each replaces one object, and each is undone by the journal
entries it leaves. -/
namespace StableNet.Evm
open State
open Chain (Address Bytes)
variable {f : Flag} {e n : BitVec 64} {entry : StateObject → JournalEntry} {c : Bytes} {gas : ℕ}

namespace Flag

def bit : Flag → ℕ
  | blacklisted => 63
  | authorized => 62

lemma mask_eq_twoPow (f : Flag) : f.mask = BitVec.twoPow 64 f.bit := by
  cases f <;> decide

lemma bit_injective {g : Flag} (h : f.bit=g.bit) : f=g := by
  cases f <;> cases g <;> simp_all [bit]

lemma hasBit_mask (e : BitVec 64) (f : Flag) : hasBit e f.mask = e.getLsbD f.bit := by
  rw [hasBit,mask_eq_twoPow,BitVec.and_twoPow]
  cases he : e.getLsbD f.bit
  · simp
  · cases f <;> decide

lemma getLsbD_mask (f : Flag) (i : ℕ) : f.mask.getLsbD i = decide (i=f.bit) := by
  have hlt : f.bit<64 := by cases f <;> decide
  simp [mask_eq_twoPow,BitVec.getLsbD_twoPow,hlt,eq_comm]

@[simp]
lemma hasBit_setBit (e : BitVec 64) (f g : Flag) :
    hasBit (setBit e f.mask) g.mask = (hasBit e g.mask || decide (g=f)) := by
  have hbit : g.bit=f.bit ↔ g=f := ⟨bit_injective,congrArg bit⟩
  simp [hasBit_mask,setBit,getLsbD_mask,hbit]

@[simp]
lemma hasBit_clearBit (e : BitVec 64) (f g : Flag) :
    hasBit (clearBit e f.mask) g.mask = (hasBit e g.mask && !decide (g=f)) := by
  have hbit : g.bit=f.bit ↔ g=f := ⟨bit_injective,congrArg bit⟩
  have hlt : g.bit<64 := by cases g <;> decide
  simp only [hasBit_mask,clearBit,BitVec.getLsbD_and,BitVec.getLsbD_not,getLsbD_mask,hbit,hlt,
    decide_true,Bool.true_and]

lemma setBit_of_hasBit (h : hasBit e f.mask=true) : setBit e f.mask=e := by
  rw [hasBit_mask] at h
  ext i hi
  by_cases hif : i=f.bit
  · simp_all [setBit,← BitVec.getLsbD_eq_getElem,getLsbD_mask]
  · simp [setBit,← BitVec.getLsbD_eq_getElem,getLsbD_mask,hif]

lemma clearBit_of_not_hasBit (h : hasBit e f.mask=false) : clearBit e f.mask=e := by
  rw [hasBit_mask] at h
  ext i hi
  by_cases hif : i=f.bit
  · simp_all [clearBit,← BitVec.getLsbD_eq_getElem,getLsbD_mask]
  · simp [clearBit,← BitVec.getLsbD_eq_getElem,getLsbD_mask,hif,hi]

end Flag

namespace State
variable {s : State} {a : Address} {o o' : StateObject}

lemma lookup_put (s : State) (a b : Address) (o : StateObject) :
    (s.put a o).objects.lookup b = if b=a then some o else s.objects.lookup b := by
  by_cases h : b=a
  · subst h
    simp [put]
  · simp [put,h]

lemma obj_put (s : State) (a b : Address) (o : StateObject) : (s.put a o).obj b = if b=a then o else s.obj b := by
  rw [obj,lookup_put]
  split <;> rfl

@[simp]
lemma obj_put_self (s : State) (a : Address) (o : StateObject) : (s.put a o).obj a = o := by
  simp [obj_put]

lemma obj_of_lookup (h : s.objects.lookup a = some o) : s.obj a = o := by simp [obj,h]

@[simp]
lemma put_put (s : State) (a : Address) (o o' : StateObject) : (s.put a o).put a o' = s.put a o' := by
  simp [put]

lemma put_of_lookup (h : s.objects.lookup a = some o) : s.put a o=s := by
  have hobjects : s.objects.insert a o=s.objects := by
    apply Finmap.ext_lookup
    intro b
    by_cases hb : b=a
    · subst hb
      rw [Finmap.lookup_insert,h]
    · rw [Finmap.lookup_insert_of_ne _ hb]
  rw [put,hobjects]

@[simp]
lemma modify_put (s : State) (a : Address) (o : StateObject) (f : StateObject → StateObject) :
    (s.put a o).modify a f = s.put a (f o) := by
  simp [modify,lookup_put]

lemma erase_put (h : s.objects.lookup a=none) : { s.put a o with objects := (s.put a o).objects.erase a } = s := by
  have hobjects : (s.put a o).objects.erase a=s.objects := by
    apply Finmap.ext_lookup
    intro b
    by_cases hb : b=a
    · subst hb
      rw [Finmap.lookup_erase,h]
    · rw [Finmap.lookup_erase_ne hb,lookup_put,if_neg hb]
  rw [hobjects]
  rfl

@[simp]
lemma setTransient_setTransient (s : State) (a : Address) (key : Slot) (v w : Word) :
    (s.setTransient a key v).setTransient a key w = s.setTransient a key w := by
  simp [setTransient]

@[simp]
lemma setTransient_self (s : State) (a : Address) (key : Slot) : s.setTransient a key (s.transient a key) = s := by
  simp [setTransient]

end State

namespace StateDB
open Lib
variable {db db' db'' : StateDB} {a : Address} {v : Word} {key : Slot}

/-- The second was reached from the first by changes the journal can undo. -/
def Extends (db db' : StateDB) : Prop := UndoLog.Extends JournalEntry.revert db.logged db'.logged

lemma Extends.refl (db : StateDB) : db.Extends db := UndoLog.Extends.refl _

lemma Extends.trans (h : db.Extends db') (h' : db'.Extends db'') : db.Extends db'' := UndoLog.Extends.trans h h'

lemma extends_change {e : JournalEntry} {s : State} (h : e.revert s=db.toState) : db.Extends (db.change e s) :=
  UndoLog.Extends.change h

/-- A revert gives the state back; the mark on `ripemd` stays. -/
theorem Extends.revertToSnapshot (h : db.Extends db') :
    db'.revertToSnapshot db.snapshot = { db with ripemdDirty := db'.ripemdDirty } := by
  have hrevert : UndoLog.revertTo JournalEntry.revert db.snapshot db'.logged=db.logged :=
    UndoLog.Extends.revertTo_eq h
  rw [StateDB.revertToSnapshot,hrevert]
  rfl

lemma getBalance_eq (db : StateDB) (a : Address) : db.getBalance a = (db.obj a).balance := by
  rw [getBalance,getStateObject,State.obj]
  cases db.objects.lookup a <;> rfl

lemma getNonce_eq (db : StateDB) (a : Address) : db.getNonce a = (db.obj a).nonce := by
  rw [getNonce,getStateObject,State.obj]
  cases db.objects.lookup a <;> rfl

lemma getCode_eq (db : StateDB) (a : Address) : db.getCode a = (db.obj a).code := by
  rw [getCode,getStateObject,State.obj]
  cases db.objects.lookup a <;> rfl

lemma getExtra_eq (db : StateDB) (a : Address) : db.getExtra a = (db.obj a).extra := by
  rw [getExtra,getStateObject,State.obj]
  cases db.objects.lookup a <;> rfl

lemma getState_eq (db : StateDB) (a : Address) (key : Slot) : db.getState a key = (db.obj a).storage key := by
  rw [getState,getStateObject,State.obj]
  cases db.objects.lookup a <;> rfl

lemma hasFlag_eq (db : StateDB) (f : Flag) (a : Address) : db.hasFlag f a = (db.obj a).hasFlag f := by
  rw [hasFlag,getStateObject,State.obj]
  cases db.objects.lookup a with
  | none => cases f <;> decide
  | some o => rfl

lemma toState_createObject : (db.createObject a).toState = db.put a .new := by
  rw [createObject]
  split <;> rfl

lemma extends_createObject : db.Extends (db.createObject a) := by
  rw [createObject]
  split
  · exact extends_change (erase_put ‹_›)
  · apply extends_change
    rw [JournalEntry.revert,put_put,put_of_lookup ‹_›]

lemma toState_getOrNewStateObject : (db.getOrNewStateObject a).toState = db.put a (db.obj a) := by
  rw [getOrNewStateObject]
  split
  · rw [obj_of_lookup ‹_›,put_of_lookup ‹_›]
  · rw [toState_createObject,State.obj,show db.objects.lookup a=none from ‹_›]
    rfl

@[simp]
lemma obj_getOrNewStateObject : (db.getOrNewStateObject a).obj a = db.obj a := by
  rw [toState_getOrNewStateObject,obj_put_self]

lemma extends_getOrNewStateObject : db.Extends (db.getOrNewStateObject a) := by
  rw [getOrNewStateObject]
  split
  · exact Extends.refl db
  · exact extends_createObject

lemma toState_update {f : StateObject → StateObject} : (db.update a entry f).toState = db.put a (f (db.obj a)) := by
  change (db.getOrNewStateObject a).toState.put a (f ((db.getOrNewStateObject a).obj a)) = _
  rw [obj_getOrNewStateObject,toState_getOrNewStateObject,put_put]

lemma extends_update {f : StateObject → StateObject}
    (h : ∀ s : State, (entry (db.obj a)).revert (s.put a (f (db.obj a))) = s.put a (db.obj a)) :
    db.Extends (db.update a entry f) := by
  apply extends_getOrNewStateObject.trans
  apply extends_change
  rw [obj_getOrNewStateObject,h,toState_getOrNewStateObject,put_put]

lemma toState_touch : (db.touch a).toState = db.toState := by
  rw [touch]
  split <;> rfl

lemma extends_touch : db.Extends (db.touch a) := by
  have h : db.Extends (db.change (.touch a) db.toState) := extends_change rfl
  rw [touch]
  split
  · exact h
  · exact h

lemma toState_createAccount :
    (db.createAccount a).toState = db.put a { StateObject.new with balance := (db.obj a).balance } := by
  rw [createAccount]
  split
  · rw [toState_createObject,State.obj,show db.objects.lookup a=none from ‹_›]
    rfl
  · rw [toState_createObject,put_put,obj_of_lookup ‹_›]

lemma extends_createAccount : db.Extends (db.createAccount a) := by
  rw [createAccount]
  split
  · exact extends_createObject
  · rename_i prev hprev
    simp only [createObject,hprev]
    apply extends_change (e := .resetObject a prev)
    rw [JournalEntry.revert,change,put_put,put_put,put_of_lookup hprev]

lemma toState_setBalance : (db.setBalance a v).toState = db.put a { db.obj a with balance := v } := toState_update

lemma extends_setBalance : db.Extends (db.setBalance a v) := extends_update fun s => modify_put s a _ _

lemma toState_addBalance :
    (db.addBalance a v).toState = db.put a { db.obj a with balance := (db.obj a).balance+v } := by
  rw [addBalance]
  dsimp only
  rw [obj_getOrNewStateObject]
  split
  · subst v
    rw [add_zero]
    split
    · rw [toState_touch,toState_getOrNewStateObject]
    · exact toState_getOrNewStateObject
  · rw [toState_setBalance,toState_getOrNewStateObject,put_put,obj_put_self]

lemma extends_addBalance : db.Extends (db.addBalance a v) := by
  rw [addBalance]
  apply extends_getOrNewStateObject.trans
  split
  · split
    · exact extends_touch
    · exact Extends.refl _
  · exact extends_setBalance

lemma toState_subBalance :
    (db.subBalance a v).toState = db.put a { db.obj a with balance := (db.obj a).balance-v } := by
  rw [subBalance]
  dsimp only
  rw [obj_getOrNewStateObject]
  split
  · subst v
    rw [sub_zero]
    exact toState_getOrNewStateObject
  · rw [toState_setBalance,toState_getOrNewStateObject,put_put,obj_put_self]

lemma extends_subBalance : db.Extends (db.subBalance a v) := by
  rw [subBalance]
  apply extends_getOrNewStateObject.trans
  split
  · exact Extends.refl _
  · exact extends_setBalance

lemma toState_setNonce : (db.setNonce a n).toState = db.put a { db.obj a with nonce := n } := toState_update

lemma extends_setNonce : db.Extends (db.setNonce a n) := extends_update fun s => modify_put s a _ _

lemma toState_setCode : (db.setCode a c).toState = db.put a { db.obj a with code := c } := toState_update

lemma extends_setCode : db.Extends (db.setCode a c) := extends_update fun s => modify_put s a _ _

lemma toState_setState : (db.setState a key v).toState =
      db.put a { db.obj a with storage := Function.update (db.obj a).storage key v } := by
  rw [setState]
  dsimp only
  rw [obj_getOrNewStateObject]
  split
  · rename_i h
    rw [toState_getOrNewStateObject,← h,Function.update_eq_self]
  · rw [toState_update,toState_getOrNewStateObject,put_put,obj_put_self]

lemma extends_setState : db.Extends (db.setState a key v) := by
  rw [setState]
  apply extends_getOrNewStateObject.trans
  split
  · exact Extends.refl _
  · apply extends_update
    intro s
    rw [JournalEntry.revert,modify_put]
    simp

lemma toState_setExtra : (db.setExtra a e).toState = db.put a { db.obj a with extra := e } := toState_update

lemma extends_setExtra : db.Extends (db.setExtra a e) := extends_update fun s => modify_put s a _ _

lemma toState_setFlag : (db.setFlag f a).toState =
    db.put a { db.obj a with extra := Flag.setBit (db.obj a).extra f.mask } := by
  rw [setFlag]
  dsimp only
  rw [obj_getOrNewStateObject]
  split
  · rw [Flag.setBit_of_hasBit ‹_›,toState_getOrNewStateObject]
  · rw [toState_setExtra,toState_getOrNewStateObject,put_put,obj_put_self]

lemma extends_setFlag : db.Extends (db.setFlag f a) := by
  rw [setFlag]
  apply extends_getOrNewStateObject.trans
  split
  · exact Extends.refl _
  · exact extends_setExtra

lemma toState_clearFlag : (db.clearFlag f a).toState =
    db.put a { db.obj a with extra := Flag.clearBit (db.obj a).extra f.mask } := by
  rw [clearFlag]
  dsimp only
  rw [obj_getOrNewStateObject]
  split
  · rw [toState_setExtra,toState_getOrNewStateObject,put_put,obj_put_self]
  · rename_i h
    rw [Flag.clearBit_of_not_hasBit (Bool.eq_false_iff.mpr h)]
    split
    · rw [toState_touch,toState_getOrNewStateObject]
    · exact toState_getOrNewStateObject

lemma extends_clearFlag : db.Extends (db.clearFlag f a) := by
  rw [clearFlag]
  apply extends_getOrNewStateObject.trans
  split
  · exact extends_setExtra
  · split
    · exact extends_touch
    · exact Extends.refl _

lemma toState_selfDestruct (h : db.exist a=true) : (db.selfDestruct a).toState =
    db.put a { db.obj a with selfDestructed := true, balance := 0 } := by
  obtain ⟨o,ho⟩ := Option.isSome_iff_exists.mp h
  simp only [selfDestruct,ho]
  rw [obj_of_lookup ho]
  rfl

lemma extends_selfDestruct : db.Extends (db.selfDestruct a) := by
  rw [selfDestruct]
  split
  · exact Extends.refl db
  · apply extends_change
    rw [JournalEntry.revert,modify_put,put_of_lookup ‹_›]

theorem toState_selfdestruct6780 (h : db.exist a=true) : (db.selfdestruct6780 a).toState =
    if (db.obj a).created then db.put a { db.obj a with selfDestructed := true, balance := 0 }
    else db.toState := by
  obtain ⟨o,ho⟩ := Option.isSome_iff_exists.mp h
  simp only [selfdestruct6780,ho,obj_of_lookup ho]
  split
  · rw [toState_selfDestruct h,obj_of_lookup ho]
  · rfl

lemma extends_selfdestruct6780 : db.Extends (db.selfdestruct6780 a) := by
  rw [selfdestruct6780]
  split
  · exact Extends.refl db
  · split
    · exact extends_selfDestruct
    · exact Extends.refl db

lemma extends_setTransientState : db.Extends (db.setTransientState a key v) := by
  rw [setTransientState]
  split
  · exact Extends.refl db
  · apply extends_change
    rw [JournalEntry.revert,setTransient_setTransient,setTransient_self]

lemma extends_addRefund : db.Extends (db.addRefund gas) := extends_change rfl

lemma extends_subRefund : db.Extends (db.subRefund gas) := extends_change rfl

lemma extends_addLog {log : Log} : db.Extends (db.addLog log) := by
  apply extends_change
  simp [JournalEntry.revert]

@[simp]
lemma objects_setTransientState : (db.setTransientState a key v).objects = db.objects := by
  rw [setTransientState]
  split <;> rfl

@[simp]
lemma logs_setTransientState : (db.setTransientState a key v).logs = db.logs := by
  rw [setTransientState]
  split <;> rfl

end StateDB

end StableNet.Evm
