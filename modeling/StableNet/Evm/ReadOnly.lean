import StableNet.Evm.History

/-! Read-only frames. The native managers are not asked: below a static call balances, account bits and logs can
change by their calls. -/
namespace StableNet.Evm
open Chain (Address Bytes)
open Lib StateDB

def NativeCall.writes : NativeCall → Bool
  | mint _ _ | burn _ _ | transfer _ _ _ | setFlag _ _ | clearFlag _ _ => true
  | hasFlag _ _ => false

def Event.Mutates (e : Event) : Prop := ∃ caller call, e.step = .native caller call ∧ call.writes=true

instance : DecidablePred Event.Mutates
  | ⟨.native caller call,_⟩ => decidable_of_iff (call.writes=true)
      ⟨fun h => ⟨caller,call,rfl,h⟩,by rintro ⟨_,_,⟨⟩,h⟩; exact h⟩
  | ⟨.call _ _ _,_⟩ | ⟨.create _ _ _,_⟩ | ⟨.selfdestruct _ _,_⟩ | ⟨.frame _,_⟩ | ⟨.finalise,_⟩ =>
    .isFalse (by rintro ⟨_,_,⟨⟩,_⟩)

/-- Nothing that an account has is different, and the logs are the same. -/
structure Unchanged (db db' : StateDB) : Prop where
  balance : ∀ a, db'.getBalance a = db.getBalance a
  nonce : ∀ a, db'.getNonce a = db.getNonce a
  code : ∀ a, db'.getCode a = db.getCode a
  storage : ∀ a key, db'.getState a key = db.getState a key
  extra : ∀ a, db'.getExtra a = db.getExtra a
  logs : db'.logs=db.logs

/-- What a read-only frame keeps: everything but balances and bits, and those too if no native manager was
called to change them. -/
structure Preserves (l : List Event) (db db' : StateDB) : Prop where
  obj : ∀ a, ∃ balance extra, db'.obj a = { db.obj a with balance := balance, extra := extra }
  same : (∀ e ∈ l, ¬e.Mutates) → (∀ a, db'.obj a = db.obj a) ∧ db'.logs=db.logs

namespace Preserves
variable {l l' : List Event} {db db' db'' : StateDB}

lemma of_same (h : ∀ a, db'.obj a = db.obj a) (hlogs : db'.logs=db.logs) : Preserves l db db' :=
  ⟨fun a => ⟨_,_,h a⟩,fun _ => ⟨h,hlogs⟩⟩

lemma trans (h : Preserves l db db') (h' : Preserves l' db' db'') : Preserves (l'++l) db db'' where
  obj a := by
    obtain ⟨_,_,hobj⟩ := h.obj a
    obtain ⟨balance,extra,hobj'⟩ := h'.obj a
    exact ⟨balance,extra,by rw [hobj',hobj]⟩
  same hl := by
    obtain ⟨hobj,hlogs⟩ := h.same fun e he => hl e (List.mem_append_right _ he)
    obtain ⟨hobj',hlogs'⟩ := h'.same fun e he => hl e (List.mem_append_left _ he)
    exact ⟨fun a => (hobj' a).trans (hobj a),hlogs'.trans hlogs⟩

lemma composes : Composes fun ro l db db' => ro=true → Preserves l db db' where
  reverted _ _ _ _ := of_same (fun _ => rfl) rfl
  trans h h' hro := (h hro).trans (h' hro)
  mono h _ := h rfl

end Preserves

lemma NativeCall.preserves (vm : Vm) (db : StateDB) (caller : Address) (call : NativeCall) :
    Preserves [⟨.native caller call,db⟩] db (call.apply vm db) where
  obj a := by
    cases call with
    | mint | transfer => exact ⟨_,_,by rw [apply,Vm.obj_nativeTransfer]⟩
    | burn =>
      rw [apply,Vm.addTransferLog,obj_addLog,obj_subBalance]
      split
      · rw [‹a = _›]
        exact ⟨_,_,rfl⟩
      · exact ⟨_,_,rfl⟩
    | setFlag =>
      rw [apply,obj_setFlag]
      split
      · rw [‹a = _›]
        exact ⟨_,_,rfl⟩
      · exact ⟨_,_,rfl⟩
    | clearFlag =>
      rw [apply,obj_clearFlag]
      split
      · rw [‹a = _›]
        exact ⟨_,_,rfl⟩
      · exact ⟨_,_,rfl⟩
    | hasFlag => exact ⟨_,_,rfl⟩
  same hl := by
    have hreads : call.writes=false := by
      by_contra hwrites
      exact hl _ (List.mem_singleton_self _) ⟨caller,call,rfl,by simpa using hwrites⟩
    cases call with
    | hasFlag => exact ⟨fun _ => rfl,rfl⟩
    | mint | burn | transfer | setFlag | clearFlag => cases hreads

lemma Prim.preserves {vm : Vm} {special : Address → Prop} {ro : Bool} {w w' : World}
    (h : Prim vm special ro w w') : ∃ new, w'.kept = new++w.kept ∧ (ro=true → Preserves new w.db w'.db) := by
  cases h with
  | tick => exact ⟨[],rfl,fun _ => .of_same (fun _ => rfl) rfl⟩
  | refunds | sstore | tstore | log | bumpNonce | setCode => exact ⟨[],rfl,nofun⟩
  | selfdestruct | createEnter => exact ⟨[_],rfl,nofun⟩
  | callEnter _ _ hro =>
    refine ⟨[_],rfl,fun h => ?_⟩
    obtain rfl := hro h
    refine .of_same (fun a => ?_) ?_
    · rw [Vm.obj_callEnter]
      simp
    · rw [Vm.logs_callEnter]
      simp [Vm.valueLogs]
  | touch addr =>
    refine ⟨[],rfl,fun _ => .of_same (fun a => ?_) logs_addBalance⟩
    rw [obj_addBalance]
    split
    · rw [‹a = _›]
      simp
    · rfl
  | native => exact ⟨[_],rfl,fun _ => NativeCall.preserves vm w.db _ _⟩
  | frame => exact ⟨[_],rfl,fun _ => .of_same (fun _ => rfl) rfl⟩

lemma closed_preserves (vm : Vm) (special : Address → Prop) :
    Closed vm special (World.Tracks fun ro l db db' => ro=true → Preserves l db db') :=
  Preserves.composes.closed Prim.preserves

section StaticCall
variable (vm : Vm) (n : ℕ) (caller addr : Address) (input : Bytes) (gas : ℕ) (w : World)

theorem Vm.staticCall_preserves : ∃ new, (vm.staticCall (vm.exec n) caller addr input gas w).2.kept = new++w.kept ∧
    Preserves new w.db (vm.staticCall (vm.exec n) caller addr input gas w).2.db := by
  have h := closed_preserves vm fun _ => False
  have htracks : World.Tracks (fun ro l db db' => ro=true → Preserves l db db') true w
      (vm.staticCall (vm.exec n) caller addr input gas w).2 := h.staticCall .none (h.exec .none n) w
  obtain ⟨-,new,hkept,hpreserves⟩ := htracks
  exact ⟨new,hkept,hpreserves rfl⟩

end StaticCall

end StableNet.Evm
