import StableNet.Evm.Effects

/-! Every request is made of a few kinds of steps and of reverts, so a relation that each step keeps holds across
every request. -/
namespace StableNet.Evm
open Chain (Address Bytes)
open Lib World
open StateDB
variable {vm : Vm} {caller addr a : Address} {db : StateDB} {value : Word} {w : World} {ro : Bool} {address : Address}
variable {op : CallKind} {n : BitVec 64} {o : Result × World} {c : Contract}

/-- Who may make a native call, and how. -/
def NativeCall.Permitted (vm : Vm) (op : CallKind) (caller : Address) : NativeCall → Prop
  | mint _ _ | burn _ _ | transfer _ _ _ => op = .call ∧ caller=vm.nativeCoinAdapter
  | setFlag _ _ | clearFlag _ _ => op = .call ∧ caller=vm.govCouncil
  | hasFlag _ _ => True

/-- The effect of a native call on the world. -/
def World.native (vm : Vm) (w : World) (caller : Address) (call : NativeCall) : World :=
  { w.record (.native caller call) with db := call.apply vm w.db }

/-- The kinds of steps. The first argument tells a read-only frame; the accounts in `special` make no
steps of their own here, apart from static calls, and no contract comes into being at those in `fixed`. -/
inductive PrimAt (vm : Vm) (special fixed : Address → Prop) : Bool → World → World → Prop where
  | tick {ro : Bool} {w : World} : PrimAt vm special fixed ro w { w with clock := w.clock+1 }
  | refunds {w : World} (ch : Charge) : PrimAt vm special fixed false w { w with db := Vm.refunds ch w.db }
  | sstore {w : World} {self : Address} (key : Slot) (value : Word) (hself : ¬special self) :
      PrimAt vm special fixed false w { w with db := w.db.setState self key value }
  | tstore {w : World} (self : Address) (key : Slot) (value : Word) :
      PrimAt vm special fixed false w { w with db := w.db.setTransientState self key value }
  | log {w : World} {self : Address} (topics : List Word) (data : Bytes) (hself : ¬special self) :
      PrimAt vm special fixed false w { w with db := w.db.addLog ⟨self,topics,data⟩ }
  | selfdestruct {w : World} {self beneficiary : Address} (hself : ¬special self)
      (hcheck : checkBlacklisted w.db self beneficiary=none) :
      PrimAt vm special fixed false w (vm.selfdestruct6780 self beneficiary w)
  | callEnter {ro : Bool} {w : World} {caller addr : Address} {value : Word} (hself : ¬special caller)
      (hcheck : vm.callCheck w.db caller addr value=none) (hro : ro=true → value=0) :
      PrimAt vm special fixed ro w (vm.callEnter caller addr value w)
  | touch {ro : Bool} {w : World} (addr : Address) :
      PrimAt vm special fixed ro w { w with db := w.db.addBalance addr 0 }
  | bumpNonce {w : World} {caller : Address} (hself : ¬special caller) :
      PrimAt vm special fixed false w { w with db := w.db.setNonce caller (w.db.getNonce caller+1) }
  | createEnter {w : World} {caller address : Address} {value : Word} (hself : ¬special caller)
      (haddress : ¬fixed address) (hcaller : w.db.isBlacklisted caller=false)
      (hvalue : canTransfer w.db caller value) (hnonce : w.db.getNonce address=0)
      (hcode : w.db.getCode address = []) :
      PrimAt vm special fixed false w (vm.createEnter caller address value w)
  | setCode {w : World} {address : Address} (code : Bytes) (haddress : ¬fixed address) :
      PrimAt vm special fixed false w { w with db := w.db.setCode address code }
  | native {ro : Bool} {w : World} {op : CallKind} {caller : Address} {call : NativeCall}
      (hself : ¬special caller ∨ op ≠ .call) (hperm : call.Permitted vm op caller)
      (hcheck : call.check w.db=none) : PrimAt vm special fixed ro w (w.native vm caller call)
  | frame {ro : Bool} {w : World} {addr : Address} (haddr : w.db.isBlacklisted addr=false) :
      PrimAt vm special fixed ro w (w.record (.frame addr))

/-- The same accounts make no steps and are no new contracts. -/
abbrev Prim (vm : Vm) (special : Address → Prop) : Bool → World → World → Prop := PrimAt vm special special

/-- The addresses an account can create at. -/
def Vm.Creates (vm : Vm) (caller address : Address) : Prop :=
  (∃ nonce, address = vm.createAddress caller nonce) ∨ ∃ salt init, address = vm.createAddress2 caller salt init

/-- Requests whose steps are covered: static ones, and those of ordinary accounts that a frame can make. -/
def CallOp.Allowed (vm : Vm) (special : Address → Prop) (ro : Bool) : CallOp → Prop
  | .call caller _ _ _ value => ¬special caller ∧ (ro=true → value=0)
  | .callCode caller _ _ _ _ => ¬special caller
  | .delegateCall parent _ _ _ => ¬special parent.self
  | .staticCall _ _ _ _ => True
  | .create caller _ _ _ address => ¬special caller ∧ ro=false ∧ vm.Creates caller address

lemma Method.canRun_decode {m : Method} (input : Bytes)
    (h : m.canRun vm op caller=none) : (m.decode input).Permitted vm op caller := by
  have hcaller {a : Address} (ha : m.requiredCaller vm = some a) : op = .call ∧ caller=a := by
    by_cases hop : op = .call <;> by_cases hc : caller = a <;> simp_all [canRun]
  cases m with
  | mint | burn | transfer | setFlag | clearFlag => exact hcaller rfl
  | hasFlag => trivial

theorem runNativeManager_cases (vm : Vm) (m : NativeManagerContract) (op : CallKind) (caller : Address)
    (input : Bytes) (gas : ℕ) (w : World) :
    (∃ r, runNativeManager vm m op caller input gas w = (r,w) ∧ r.err.isSome ∧ r.gas ≤ gas) ∨
      ∃ call : NativeCall, call.Permitted vm op caller ∧ call.check w.db=none ∧
        call.gasCost w.db ≤ gas ∧ runNativeManager vm m op caller input gas w =
          (⟨call.output w.db,gas-call.gasCost w.db,none⟩,w.native vm caller call) := by
  unfold runNativeManager
  split
  · exact .inl ⟨_,rfl,rfl,le_rfl⟩
  split
  · exact .inl ⟨_,rfl,rfl,le_rfl⟩
  rename_i method _
  split
  · exact .inl ⟨_,rfl,rfl,le_rfl⟩
  rename_i hrun
  split
  · exact .inl ⟨_,rfl,rfl,le_rfl⟩
  unfold NativeCall.run
  split
  · exact .inl ⟨_,rfl,rfl,le_rfl⟩
  rename_i hcheck
  split
  · exact .inl ⟨_,rfl,rfl,Nat.zero_le _⟩
  · exact .inr ⟨_,method.canRun_decode input hrun,hcheck,by omega,rfl⟩

lemma checkBlacklisted_eq_none {src dst : Address} : checkBlacklisted db src dst=none ↔
      db.isBlacklisted src=false ∧ db.isBlacklisted dst=false := by
  cases hs : db.isBlacklisted src <;> cases hd : db.isBlacklisted dst <;>
    simp [checkBlacklisted,hs,hd]

lemma Vm.callCheck_blacklisted (h : vm.callCheck db caller addr value=none) : checkBlacklisted db caller addr=none := by
  cases hc : checkBlacklisted db caller addr with
  | none => rfl
  | some e => simp [callCheck,hc] at h

lemma Vm.isBlacklisted_callEnter : (vm.callEnter caller addr value w).db.isBlacklisted a = w.db.isBlacklisted a := by
  rw [isBlacklisted,hasFlag_eq,obj_callEnter,isBlacklisted,hasFlag_eq,StateObject.hasFlag,StateObject.hasFlag]

lemma isBlacklisted_touch : (db.addBalance addr 0).isBlacklisted a = db.isBlacklisted a := by
  rw [isBlacklisted,hasFlag_eq,obj_addBalance,isBlacklisted,hasFlag_eq]
  split
  · subst a
    rfl
  · rfl

lemma isBlacklisted_setNonce : (db.setNonce caller n).isBlacklisted a = db.isBlacklisted a := by
  rw [isBlacklisted,hasFlag_eq,obj_setNonce,isBlacklisted,hasFlag_eq]
  split
  · subst a
    rfl
  · rfl

lemma canTransfer_setNonce : canTransfer (db.setNonce caller n) a value = canTransfer db a value := by
  rw [canTransfer,getBalance_eq,obj_setNonce,canTransfer,getBalance_eq]
  split
  · subst a
    rfl
  · rfl

/-- A relation between the worlds before and after that every kind of step keeps. -/
structure ClosedAt (vm : Vm) (special fixed : Address → Prop) (R : Bool → World → World → Prop) : Prop where
  refl : ∀ ro w, R ro w w
  trans : ∀ {ro w w' w''}, R ro w w' → R ro w' w'' → R ro w w''
  /-- What a read-only frame may do, any frame may. -/
  mono : ∀ {ro w w'}, R true w w' → R ro w w'
  revert : ∀ {ro w w'}, R ro w w' → R ro w (w.rollback w')
  prim : ∀ {ro w w'}, PrimAt vm special fixed ro w w' → R ro w w'

abbrev Closed (vm : Vm) (special : Address → Prop) (R : Bool → World → World → Prop) : Prop :=
  ClosedAt vm special special R

section Closure
variable {special fixed : Address → Prop} {R : Bool → World → World → Prop} {sub : Handler}

/-- The requests that are allowed keep the relation. -/
def Covers (vm : Vm) (special : Address → Prop) (R : Bool → World → World → Prop) (sub : Handler) : Prop :=
  ∀ op ro w, op.Allowed vm special ro → R ro w (sub op ro w).2

variable (h : ClosedAt vm special fixed R)
include h

namespace ClosedAt

lemma settle (ho : R ro w o.2) : R ro w (settle w o).2 := by
  rw [Evm.settle]
  split
  · exact ho
  · exact h.revert ho

lemma mutate (ro : Bool) (f : Frame) {change : StateDB → StateDB}
    (hchange : R false f.world { f.world with db := change f.world.db }) :
    R ro f.world (Vm.mutate ro f change).2.world := by
  rw [Vm.mutate]
  cases ro with
  | true => exact h.refl true _
  | false => exact hchange

omit h in
lemma callOp_allowed (hself : ¬special c.self) {kind : CallKind} {addr : Address}
    {value : Word} {input : Bytes} {gas : ℕ} (hro : ro=true → kind = .call → value=0) :
    (Vm.callOp c kind addr value input gas).Allowed vm special ro := by
  cases kind with
  | call => exact ⟨hself,fun h => hro h rfl⟩
  | callCode => exact hself
  | delegateCall => exact hself
  | staticCall => trivial

lemma opCall (hsub : Covers vm special R sub)
    (hself : ¬special c.self) (ro : Bool) (f : Frame) (kind : CallKind) (requested : ℕ)
    (addr : Address) (value : Word) (input : Bytes) :
    R ro f.world (Vm.opCall sub ro c f kind requested addr value input).2.world := by
  unfold Vm.opCall
  dsimp only
  split
  · exact h.refl ro _
  split
  · exact h.refl ro _
  · rename_i hro
    refine hsub _ ro f.world (callOp_allowed hself ?_)
    rintro rfl rfl
    simpa using hro

lemma opCreate (hsub : Covers vm special R sub)
    (hself : ¬special c.self) (ro : Bool) (f : Frame) (value : Word) (init : Bytes)
    (haddress : vm.Creates c.self address) : R ro f.world (Vm.opCreate sub ro c f value init address).2.world := by
  unfold Vm.opCreate
  dsimp only
  split
  · exact h.refl ro _
  split
  · exact h.refl ro _
  · rename_i hro
    exact hsub _ ro f.world ⟨hself,Bool.eq_false_iff.mpr hro,haddress⟩

theorem execute (hsub : Covers vm special R sub)
    (hself : ¬special c.self) (ro : Bool) (ch : Charge) (f : Frame) (e : Op) :
    R ro f.world (vm.execute sub ro c ch f e).2.world := by
  cases e with
  | gas | balance | extCode | sload | tload => exact h.refl ro _
  | sstore key value =>
    refine h.mutate ro f (h.trans (h.prim (.refunds ch)) ?_)
    exact h.prim (.sstore (w := { f.world with db := Vm.refunds ch f.world.db }) key value hself)
  | tstore key value => exact h.mutate ro f (h.prim (.tstore c.self key value))
  | log topics data => exact h.mutate ro f (h.prim (.log topics data hself))
  | selfdestruct beneficiary =>
    rw [Vm.execute]
    cases ro with
    | true => exact h.refl true _
    | false =>
      split
      · exact h.refl false _
      · split
        · exact h.refl false _
        · exact h.prim (.selfdestruct hself ‹_›)
  | call kind gas addr value input => exact h.opCall hsub hself ro f kind gas addr value input
  | create value init => exact h.opCreate hsub hself ro f value init (.inl ⟨_,rfl⟩)
  | create2 value init salt => exact h.opCreate hsub hself ro f value init (.inr ⟨_,_,rfl⟩)

lemma step (hsub : Covers vm special R sub)
    (hself : ¬special c.self) (ro : Bool) (e : Op) (f : Frame) : R ro f.world (vm.step sub ro c e f).2.world := by
  have htick : R ro f.world (Vm.tick f).world := h.prim .tick
  rw [Vm.step]
  dsimp only
  split
  · exact htick
  · exact h.trans htick (h.execute hsub hself ro (vm.charges f.world.clock)
      ⟨(Vm.tick f).world,f.gas-(vm.charges f.world.clock).cost⟩ e)

lemma finish (ro : Bool) (ret : Bytes) (err : Option VmError) (f : Frame) :
    R ro f.world (vm.finish ret err f).2 := by
  rw [Vm.finish]
  split <;> exact h.prim .tick

lemma run (hsub : Covers vm special R sub)
    (hself : ¬special c.self) (ro : Bool) (w : World) : R ro w (vm.run sub ro c w).2 := by
  rw [Vm.run]
  split
  · exact h.refl ro w
  · have hrun := Tree.run_rel (R := fun f f' : Frame => R ro f.world f'.world) (fun f => h.refl ro f.world)
      h.trans (fun e f => h.step hsub hself ro e f) (vm.interp vm.env c) ⟨w,c.gas⟩
    split
    · exact h.trans (by simpa [*] using hrun) (h.finish ro _ none _)
    · simpa [*] using hrun
    · exact h.trans (by simpa [*] using hrun) (h.finish ro _ _ _)
    · simpa [*] using hrun

end ClosedAt

/-- What is left to prove about the special accounts: their own code keeps the relation from the start of
the request, whether it succeeds or is reverted, when the requests below do; and so does a creation at
the address of one, which other accounts may attempt. -/
structure SpecialsAt (vm : Vm) (special fixed : Address → Prop) (R : Bool → World → World → Prop) : Prop where
  covered : ∀ a, special a → fixed a := by exact fun _ h => h
  frame : ∀ n ro start w (c : Contract), special c.self → nativeManager c.self=none →
    c.code = resolveCode w.db c.self → c.code ≠ [] → Covers vm special R (vm.exec n) → R ro start w →
    R ro start (settle start (vm.run (vm.exec n) ro c w)).2
  create : ∀ n w (c : Contract) caller value, fixed c.self → vm.Creates caller c.self →
    w.db.getNonce c.self=0 → w.db.getCode c.self = [] → R false w (settle w (Vm.deploy c.self
      (vm.run (vm.exec n) false c (vm.createEnter caller c.self value w)))).2

abbrev Specials (vm : Vm) (special : Address → Prop) (R : Bool → World → World → Prop) : Prop :=
  SpecialsAt vm special special R

namespace ClosedAt
variable {n gas : ℕ} {input : Bytes}

section
variable (hs : SpecialsAt vm special fixed R) (hsub : Covers vm special R (vm.exec n))
include hs hsub

lemma runAt {start : World} (hw : R ro start w) (haddr : w.db.isBlacklisted addr=false)
    (hcaller : ¬special caller ∨ op ≠ .call) (hself : ¬special c.self ∨ c.self=addr) :
    R ro start (Evm.settle start (vm.runAt (vm.exec n) ro op caller addr c w)).2 := by
  rw [Vm.runAt]
  split
  · exact h.settle hw
  split
  · apply h.settle
    obtain ⟨r,heq,_⟩ | ⟨call,hperm,hcheck,_,heq⟩ := runNativeManager_cases vm _ op caller c.input c.gas w
    · rw [heq]
      exact hw
    · rw [heq]
      exact h.trans hw (h.prim (.native hcaller hperm hcheck))
  · dsimp only
    split
    · rename_i hempty
      rw [Vm.run,if_pos hempty]
      exact h.settle hw
    · rename_i hcode
      have hframe := h.trans hw (h.prim (.frame haddr))
      by_cases hspecial : special c.self
      · obtain hself | rfl := hself
        · exact absurd hspecial hself
        · exact hs.frame n ro start _ _ hspecial ‹_› rfl (by simpa using hcode) hsub hframe
      · exact h.settle (h.trans hframe
          (h.run (c := { c with code := resolveCode w.db addr }) hsub hspecial ro _))

lemma call (hcaller : ¬special caller) (hro : ro=true → value=0) (w : World) :
    R ro w (vm.call (vm.exec n) ro caller addr input gas value w).2 := by
  rw [Vm.call]
  split
  · exact h.refl ro w
  rename_i hcheck
  split
  · exact h.refl ro w
  · refine h.runAt hs hsub (h.prim (.callEnter hcaller hcheck hro)) ?_ (.inl hcaller) (.inr rfl)
    rw [Vm.isBlacklisted_callEnter]
    exact (checkBlacklisted_eq_none.mp (Vm.callCheck_blacklisted hcheck)).2

lemma callCode (hcaller : ¬special caller) (w : World) :
    R ro w (vm.callCode (vm.exec n) ro caller addr input gas value w).2 := by
  rw [Vm.callCode]
  split
  · exact h.refl ro w
  rename_i hcheck
  split
  · exact h.refl ro w
  · exact h.runAt hs hsub (h.refl ro w) (checkBlacklisted_eq_none.mp hcheck).2 (.inl hcaller)
      (.inl hcaller)

lemma delegateCall {parent : Contract} (hparent : ¬special parent.self) (w : World) :
    R ro w (vm.delegateCall (vm.exec n) ro parent addr input gas w).2 := by
  rw [Vm.delegateCall]
  split
  · exact h.refl ro w
  · rename_i hcheck
    exact h.runAt hs hsub (h.refl ro w) (checkBlacklisted_eq_none.mp hcheck).2 (.inl hparent)
      (.inl hparent)

lemma staticCall (w : World) : R true w (vm.staticCall (vm.exec n) caller addr input gas w).2 := by
  rw [Vm.staticCall]
  split
  · exact h.refl true w
  · rename_i hcheck
    refine h.runAt hs hsub (h.prim (.touch addr)) ?_ (.inr (by decide)) (.inr rfl)
    rw [isBlacklisted_touch]
    exact (checkBlacklisted_eq_none.mp hcheck).2

end

lemma deploy (haddress : ¬fixed address) (ho : R false w o.2) :
    R false w (Vm.deploy address o).2 := by
  unfold Vm.deploy
  dsimp only
  split
  · exact ho
  split
  · exact ho
  split
  · exact ho
  split
  · exact ho
  · exact h.trans ho (h.prim (.setCode _ haddress))

lemma create (hs : SpecialsAt vm special fixed R)
    (hsub : Covers vm special R (vm.exec n)) {code : Bytes} (hcaller : ¬special caller)
    (hcreates : vm.Creates caller address) (w : World) :
    R false w (vm.create (vm.exec n) false caller code gas value address w).2 := by
  rw [Vm.create]
  dsimp only
  split
  · exact h.refl false w
  rename_i hbl
  split
  · exact h.refl false w
  rename_i hvalue
  split
  · exact h.refl false w
  have hnonce : R false w { w with db := w.db.setNonce caller (w.db.getNonce caller+1) } :=
    h.prim (.bumpNonce hcaller)
  split
  · exact hnonce
  rename_i hfree
  apply h.trans hnonce
  have hfree' : (w.db.setNonce caller (w.db.getNonce caller+1)).getNonce address=0 ∧
      (w.db.setNonce caller (w.db.getNonce caller+1)).getCode address = [] := by simpa using hfree
  by_cases haddress : fixed address
  · exact hs.create n _ ⟨caller,address,code,value,[],gas⟩ caller value haddress hcreates hfree'.1 hfree'.2
  · refine h.settle (h.deploy haddress (h.trans
      (h.prim (.createEnter hcaller haddress ?_ ?_ hfree'.1 hfree'.2)) (h.run hsub (haddress ∘ hs.covered _) false _)))
    · rw [isBlacklisted_setNonce]
      simpa using hbl
    · rw [canTransfer_setNonce]
      simpa using hvalue

end ClosedAt

lemma ClosedAt.exec (hs : SpecialsAt vm special fixed R) (n : ℕ) :
    Covers vm special R (vm.exec n) := by
  induction n with
  | zero => exact fun op ro w _ => h.refl ro w
  | succ n ih =>
    intro op ro w hop
    cases op with
    | call => exact h.call hs ih hop.1 hop.2 w
    | callCode => exact h.callCode hs ih hop w
    | delegateCall => exact h.delegateCall hs ih hop w
    | staticCall => exact h.mono (h.staticCall hs ih w)
    | create =>
      obtain ⟨hcaller,rfl,hcreates⟩ := hop
      exact h.create hs ih hcaller hcreates w

omit h in
lemma SpecialsAt.none : Specials vm (fun _ => False) R where
  frame _ _ _ _ _ h := h.elim
  create _ _ _ _ _ h := h.elim

end Closure

namespace World
variable {w' w'' start : World}

structure Grows (w w' : World) : Prop where
  db : w.db.Extends w'.db
  trace : w.trace <:+ w'.trace
  kept : w.kept <:+ w'.kept

lemma Grows.refl (w : World) : w.Grows w := ⟨.refl _,List.suffix_rfl,List.suffix_rfl⟩

lemma Grows.trans (h : w.Grows w') (h' : w'.Grows w'') : w.Grows w'' :=
  ⟨h.db.trans h'.db,h.trace.trans h'.trace,h.kept.trans h'.kept⟩

lemma Grows.of_db (h : w.db.Extends db) : w.Grows { w with db := db } := ⟨h,List.suffix_rfl,List.suffix_rfl⟩

lemma grows_record {s : Step} (h : w.db.Extends db) : w.Grows { w.record s with db := db } :=
  ⟨h,List.suffix_cons _ _,List.suffix_cons _ _⟩

/-- The world `start`, with the time, the steps and the mark on `ripemd` of a world that was given up. -/
def restored (start w : World) : World :=
  { w with db := { start.db with ripemdDirty := w.db.ripemdDirty }, kept := start.kept }

lemma rollback_eq_restored (h : start.Grows w) : start.rollback w = start.restored w := by
  rw [rollback,h.db.revertToSnapshot]
  rfl

lemma grows_restored (h : start.Grows w) : start.Grows (start.restored w) := ⟨.refl _,h.trace,List.suffix_rfl⟩

end World

lemma PrimAt.grows {vm : Vm} {special fixed : Address → Prop} {w' : World}
    (h : PrimAt vm special fixed ro w w') : w.Grows w' := by
  cases h with
  | tick => exact ⟨.refl _,List.suffix_rfl,List.suffix_rfl⟩
  | refunds ch => exact .of_db (Vm.extends_refunds ch _)
  | sstore => exact .of_db extends_setState
  | tstore => exact .of_db extends_setTransientState
  | log => exact .of_db extends_addLog
  | selfdestruct => exact grows_record Vm.extends_selfdestruct6780
  | callEnter => exact grows_record Vm.extends_callEnter
  | touch => exact .of_db extends_addBalance
  | bumpNonce => exact .of_db extends_setNonce
  | createEnter => exact grows_record Vm.extends_createEnter
  | setCode => exact .of_db extends_setCode
  | native => exact grows_record (NativeCall.extends_apply vm _ _)
  | frame => exact grows_record (.refl _)

lemma closed_grows (vm : Vm) : Closed vm (fun _ => False) fun _ w w' => w.Grows w' where
  refl _ w := .refl w
  trans h h' := h.trans h'
  mono h := h
  revert h := by
    rw [rollback_eq_restored h]
    exact grows_restored h
  prim h := h.grows

lemma Vm.run_grows (vm : Vm) {n : ℕ} : w.Grows (vm.run (vm.exec n) ro c w).2 :=
  (closed_grows vm).run ((closed_grows vm).exec .none n) not_false ro w

end StableNet.Evm
