import StableNet.Evm.AccountBits
import StableNet.Evm.ReadOnly

/-! The code of a contract stays: nothing is created at its address, it cannot delegate, and only new contracts can
self-destruct. -/
namespace StableNet.Evm
open Chain
open Lib
open StateDB
variable {a : Address} {code : Bytes} {w : World} {msg : Message}

lemma JournalEntry.lookup_revert {e : JournalEntry} (h : e.dirtied ≠ some a) (s : State) :
    (e.revert s).objects.lookup a = s.objects.lookup a := by
  have hmodify {b : Address} (f : StateObject → StateObject) (hb : b≠a) :
      (s.modify b f).objects.lookup a = s.objects.lookup a := by
    rw [State.modify]
    split
    · rfl
    · rw [State.lookup_put,if_neg hb.symm]
  cases e with
  | createObject b =>
    have hb : b≠a := fun hb => h (congrArg some hb)
    exact Finmap.lookup_erase_ne hb.symm
  | resetObject b =>
    have hb : b≠a := fun hb => h (congrArg some hb)
    rw [revert,State.lookup_put,if_neg hb.symm]
  | selfDestruct | balance | nonce | storage | code | extra => exact hmodify _ fun hb => h (congrArg some hb)
  | refund | addLog | touch | transientStorage => rfl

namespace StateDB
variable {db db' db'' : StateDB}

/-- Every object that changed is marked by the journal. -/
structure Marks (db db' : StateDB) : Prop where
  journal : db.journal <:+ db'.journal
  lookup : ∀ a, (∀ e ∈ db'.journal, e.dirtied ≠ some a) → db'.objects.lookup a = db.objects.lookup a

lemma Marks.trans (h : Marks db db') (h' : Marks db' db'') : Marks db db'' where
  journal := h.journal.trans h'.journal
  lookup a ha := (h'.lookup a ha).trans (h.lookup a fun e he => ha e (h'.journal.subset he))

lemma Extends.marks (h : db.Extends db') : Marks db db' := by
  obtain ⟨entries,hlog,hundo⟩ := h
  have hjournal : db'.journal = entries++db.journal := hlog
  refine ⟨⟨entries,hjournal.symm⟩,fun a ha => ?_⟩
  have hall : ∀ (es : List JournalEntry) (s : State), (∀ e ∈ es, e.dirtied ≠ some a) →
      (UndoLog.undoAll JournalEntry.revert es s).objects.lookup a = s.objects.lookup a := by
    intro es
    induction es with
    | nil => exact fun s _ => rfl
    | cons e es ih =>
      intro s hes
      refine (ih (e.revert s) fun e he => hes e (List.mem_cons_of_mem _ he)).trans ?_
      exact e.lookup_revert (hes e List.mem_cons_self) s
  have hrest := hall entries db'.toState fun e he => ha e (hjournal ▸ List.mem_append_left _ he)
  have hstate : UndoLog.undoAll JournalEntry.revert entries db'.toState=db.toState := hundo
  rw [← hrest,hstate]

/-- Nothing to undo, and no object that is new or about to go. -/
structure AtRest (db : StateDB) : Prop where
  journal : db.journal = []
  settled : ∀ a o, db.objects.lookup a = some o → o.created=false ∧ o.selfDestructed=false

lemma journal_finalise (db : StateDB) : db.finalise.journal = [] := by
  rw [finalise,clearJournalAndRefund]
  split
  · rename_i hempty
    exact List.isEmpty_iff.mp hempty
  · rfl

lemma AtRest.finalise (h : AtRest db) (hmarks : Marks db db') : AtRest db'.finalise where
  journal := journal_finalise db'
  settled a o ho := by
    rw [objects_finalise,lookup_finaliseObjects] at ho
    split at ho
    · obtain ⟨o',_,hdead⟩ := Option.bind_eq_some_iff.mp ho
      split at hdead
      · cases hdead
      · rename_i halive
        cases hdead
        simp only [StateObject.dead,Bool.or_eq_true,not_or,Bool.not_eq_true] at halive
        exact ⟨rfl,halive.1⟩
    · rename_i hclean
      refine h.settled a o ?_
      rw [← hmarks.lookup a,ho]
      intro e he hdirty
      exact hclean (List.mem_append_left _ (List.mem_filterMap.mpr ⟨e,he,hdirty⟩))

end StateDB

/-- The code of a contract, at an object that stays. -/
structure Rooted (code : Bytes) (a : Address) (db : StateDB) : Prop where
  code : (db.obj a).code = code
  old : (db.obj a).created=false
  alive : (db.obj a).selfDestructed=false

section
variable {db db' : StateDB}

lemma Rooted.of_obj (h : Rooted code a db) (hcode : (db'.obj a).code = (db.obj a).code)
    (hcreated : (db'.obj a).created = (db.obj a).created)
    (hdestructed : (db'.obj a).selfDestructed = (db.obj a).selfDestructed) : Rooted code a db' :=
  ⟨hcode.trans h.code,hcreated.trans h.old,hdestructed.trans h.alive⟩

lemma Rooted.of_eq (h : Rooted code a db) (hobj : db'.obj a = db.obj a) : Rooted code a db' :=
  h.of_obj (by rw [hobj]) (by rw [hobj]) (by rw [hobj])

lemma Rooted.not_isEOA (h : Rooted code a db) (hne : code ≠ []) (hplain : parseDelegation code=none) :
    isEOA db a=false := by
  rw [isEOA,getCode_eq,h.code,hplain]
  simpa using hne

lemma StateDB.AtRest.rooted (h : db.AtRest) (hcode : (db.obj a).code = code) (hne : code ≠ []) : Rooted code a db := by
  cases ho : db.objects.lookup a with
  | none =>
    rw [State.obj,ho] at hcode
    exact absurd hcode.symm hne
  | some o =>
    obtain ⟨hcreated,halive⟩ := h.settled a o ho
    have hobj := State.obj_of_lookup ho
    exact ⟨hcode,by rw [hobj,hcreated],by rw [hobj,halive]⟩

lemma StateDB.code_finalise (db : StateDB) (hcode : (db.obj a).code = code) (hne : code ≠ [])
    (halive : (db.obj a).selfDestructed=false) : (db.finalise.obj a).code = code := by
  rw [obj_finalise]
  split
  · have hempty : (db.obj a).empty=false := by
      simp [StateObject.empty,hcode,hne]
    rw [StateObject.finalised,StateObject.dead,halive,hempty]
    exact hcode
  · exact hcode

end

theorem PrimAt.rooted {vm : Vm} {special : Address → Prop} {ro : Bool} {w' : World}
    (h : PrimAt vm special (· = a) ro w w') (hw : Rooted code a w.db) : Rooted code a w'.db := by
  cases h with
  | tick | log | frame => exact hw.of_eq rfl
  | refunds ch => exact hw.of_eq (Vm.obj_refunds ch _)
  | sstore =>
    refine hw.of_obj ?_ ?_ ?_ <;>
    · rw [obj_setState]
      split
      · rw [‹a = _›]
      · rfl
  | tstore => exact hw.of_eq obj_setTransientState
  | selfdestruct =>
    -- only an object of the current transaction goes
    have hnot : ∀ {self}, ¬(a=self ∧ (w.db.obj self).created=true) := by
      rintro _ ⟨rfl,hcreated⟩
      simp [hw.old] at hcreated
    refine hw.of_obj ?_ ?_ ?_ <;> rw [Vm.obj_selfdestruct6780,if_neg hnot]
  | callEnter => refine hw.of_obj ?_ ?_ ?_ <;> rw [Vm.obj_callEnter]
  | touch addr =>
    refine hw.of_obj ?_ ?_ ?_ <;>
    · rw [obj_addBalance]
      split
      · rw [‹a = _›]
      · rfl
  | bumpNonce =>
    refine hw.of_obj ?_ ?_ ?_ <;>
    · rw [obj_setNonce]
      split
      · rw [‹a = _›]
      · rfl
  | createEnter _ haddress =>
    refine hw.of_obj ?_ ?_ ?_ <;> rw [Vm.obj_createEnter,if_neg (Ne.symm haddress)]
  | setCode code haddress => exact hw.of_eq (by rw [obj_setCode,if_neg (Ne.symm haddress)])
  | native =>
    obtain ⟨_,_,hobj⟩ := (NativeCall.preserves vm w.db 0 _).obj a
    refine hw.of_obj ?_ ?_ ?_ <;>
    · rw [World.native]
      dsimp only
      rw [hobj]

def KeepsRoot (code : Bytes) (a : Address) (_ : Bool) (w w' : World) : Prop :=
  w.Grows w' ∧ (Rooted code a w.db → Rooted code a w'.db)

lemma closed_keepsRoot (vm : Vm) (code : Bytes) (a : Address) :
    ClosedAt vm (fun _ => False) (· = a) (KeepsRoot code a) where
  refl _ w := ⟨.refl w,id⟩
  trans h h' := ⟨h.1.trans h'.1,h'.2 ∘ h.2⟩
  mono h := h
  revert h := by
    rw [World.rollback_eq_restored h.1]
    exact ⟨World.grows_restored h.1,fun hw => hw.of_eq rfl⟩
  prim h := ⟨h.grows,h.rooted⟩

theorem specials_keepsRoot (vm : Vm) (hne : code ≠ []) (a : Address) :
    SpecialsAt vm (fun _ => False) (· = a) (KeepsRoot code a) where
  covered _ h := h.elim
  frame _ _ _ _ _ h := h.elim
  create n w c caller value hfixed _ _ hempty := by
    have henter : w.Grows (vm.createEnter caller c.self value w) := World.grows_record Vm.extends_createEnter
    have hdeploy : w.Grows (Vm.deploy c.self (vm.run (vm.exec n) false c (vm.createEnter caller c.self value w))).2 :=
      (closed_grows vm).deploy not_false (henter.trans (@Vm.run_grows _ false c vm n))
    refine ⟨@ClosedAt.settle vm w false _ _ _ _ (closed_grows vm) hdeploy,fun hw => absurd ?_ hne⟩
    rw [← hw.code,← hfixed,← getCode_eq]
    exact hempty

lemma extends_applyAuthorization (chainId : ℕ) (db : StateDB) (auth : SetCodeAuthorization) :
    db.Extends (applyAuthorization chainId db auth) := by
  unfold applyAuthorization
  split
  · exact .refl db
  · dsimp only
    have hrefund : ∀ b : Bool, db.Extends (if b then db.addRefund (callNewAccountGas-txAuthTupleGas) else db) := by
      intro b
      cases b with
      | true => exact extends_addRefund
      | false => exact .refl db
    exact ((hrefund _).trans extends_setNonce).trans extends_setCode

lemma Vm.extends_entry {vm : Vm} : w.db.Extends (vm.entry msg w).db := by
  have hfold (auths : List SetCodeAuthorization) (db : StateDB) :
      db.Extends (auths.foldl (applyAuthorization vm.chainId) db) := by
    induction auths generalizing db with
    | nil => exact .refl db
    | cons auth auths ih => exact (extends_applyAuthorization vm.chainId db auth).trans (ih _)
  unfold entry
  cases msg.dst with
  | none => exact .refl w.db
  | some dst => exact extends_setNonce.trans (hfold _ _)

lemma extends_paid {env : Env} {o : Result × World} : o.2.db.Extends (paid env msg o) := by
  rw [paid,payFees]
  exact extends_addBalance.trans extends_addBalance

lemma extends_logAuthorized {db : StateDB} : db.Extends (logAuthorized msg db) := by
  rw [logAuthorized]
  split
  · exact extends_addLog
  · exact .refl db

namespace Network
variable {net : Network} {b : Block} {p p' : Progress} {tx : Transaction} {receipt : Receipt}

section
variable (h : net.applyTransaction b p tx = .ok (receipt,p')) (hp : p.world.db.AtRest)
include h hp

lemma atRest_applyTransaction : p'.world.db.AtRest := by
  obtain ⟨msg,gas,result,w',_,_,hcomplete,hp',_⟩ := applyTransaction_ok h
  obtain ⟨-,-,-,-,rfl⟩ := complete_ok hcomplete
  rw [hp']
  refine hp.finalise ?_
  have hbuy : StateDB.Marks p.world.db (msg.start { p.world with db := p.world.db.setTxContext }).db := by
    have hmarks : StateDB.Marks p.world.db.setTxContext (p.world.db.setTxContext.subBalance msg.payer _) :=
      (extends_subBalance (v := BitVec.ofNat 256 msg.gasCost)).marks
    exact ⟨hmarks.journal,hmarks.lookup⟩
  have hexec := @Vm.executeMessage_rel _ (net.vm b msg) msg (msg.gasLimit-gas)
    (msg.start { p.world with db := p.world.db.setTxContext }) (closed_grows _)
  exact hbuy.trans (((Vm.extends_entry.trans hexec.db).trans extends_paid).trans extends_logAuthorized).marks

lemma code_applyTransaction (hne : code ≠ []) (hplain : parseDelegation code=none)
    (hcode : (p.world.db.obj a).code = code) : (p'.world.db.obj a).code = code := by
  obtain ⟨msg,gas,result,w',_,hadmitted,hcomplete,hp',_⟩ := applyTransaction_ok h
  obtain ⟨-,-,-,-,rfl⟩ := complete_ok hcomplete
  have hstart : Rooted code a (msg.start { p.world with db := p.world.db.setTxContext }).db := by
    refine (hp.rooted hcode hne).of_obj ?_ ?_ ?_ <;>
    · rw [Message.obj_start]
      rfl
  have heoa : isEOA (msg.start { p.world with db := p.world.db.setTxContext }).db msg.src=true := by
    rw [isEOA,getCode_eq,Message.obj_start,← getCode_eq]
    exact hadmitted.eoa
  have hentry := hstart.of_eq
    ((@Vm.delegates_entry _ (net.vm b msg) msg heoa).contract a (hstart.not_isEOA hne hplain))
  have hexec := (Vm.executeMessage_rel_of_specials msg (msg.gasLimit-gas) _ (closed_keepsRoot (net.vm b msg) code a)
    (specials_keepsRoot _ hne a) not_false).2 hentry
  rw [hp']
  refine code_finalise _ ?_ hne ?_
  · rw [obj_logAuthorized,obj_paid]
    exact hexec.code
  · rw [obj_logAuthorized,obj_paid]
    exact hexec.alive

end

lemma applyTransactions_keeps {txs : List Transaction} {receipts : List Receipt}
    (h : net.applyTransactions b txs p = .ok (receipts,p')) (hp : p.world.db.AtRest) :
    p'.world.db.AtRest ∧ ∀ (a : Address) (code : Bytes), code ≠ [] → parseDelegation code=none →
      (p.world.db.obj a).code = code → (p'.world.db.obj a).code = code := by
  induction txs generalizing p receipts with
  | nil =>
    cases h
    exact ⟨hp,fun _ _ _ _ hcode => hcode⟩
  | cons tx txs ih =>
    obtain ⟨receipt,q,_,htx,hrest,rfl⟩ := applyTransactions_cons h
    obtain ⟨hrests,hcodes⟩ := ih hrest (atRest_applyTransaction htx hp)
    refine ⟨hrests,fun a code hne hplain hcode => hcodes a code hne hplain ?_⟩
    exact code_applyTransaction htx hp hne hplain hcode

end Network

section
variable {db : StateDB}

lemma extends_applyUpgrade (st : StateTransition) (db : StateDB) : db.Extends (applyUpgrade st db) := by
  have hcodes (l : List (Address × Bytes)) (db : StateDB) :
      db.Extends (l.foldl (fun db c => db.setCode c.1 c.2) db) := by
    induction l generalizing db with
    | nil => exact .refl db
    | cons c l ih => exact extends_setCode.trans (ih _)
  have hstates (l : List (Address × Slot × Word)) (db : StateDB) :
      db.Extends (l.foldl (fun db c => db.setState c.1 c.2.1 c.2.2) db) := by
    induction l generalizing db with
    | nil => exact .refl db
    | cons c l ih => exact extends_setState.trans (ih _)
  exact (hcodes st.codes db).trans (hstates st.states _)

lemma extends_credit (l : List (Address × ℕ)) (db : StateDB) : db.Extends (credit l db) := by
  induction l generalizing db with
  | nil => exact .refl db
  | cons c l ih => exact extends_addBalance.trans (ih _)

/-- The end of a block leaves the code that its upgrade brings, or the code that was there. -/
theorem finalize_keeps {b : Block} {w' : World} (h : finalize b w = .ok w') (hw : w.db.AtRest) :
    w'.db.AtRest ∧ ∀ (a : Address) (code : Bytes), code ≠ [] → ((b.upgraded w.db).obj a).code = code →
      (w'.db.obj a).code = code := by
  obtain ⟨db,hpaid,rfl⟩ := finalize_ok h
  have hcredit : ∃ l, db = credit l (b.upgraded w.db) := by
    obtain ⟨-,rfl⟩ | ⟨_,l,_,_,rfl,_⟩ := distributeBaseFee_ok hpaid
    · exact ⟨[],rfl⟩
    · exact ⟨l,rfl⟩
  obtain ⟨l,rfl⟩ := hcredit
  have hupgraded : w.db.Extends (b.upgraded w.db) := by
    rw [Block.upgraded]
    split
    · exact .refl _
    · exact extends_applyUpgrade _ _
  refine ⟨hw.finalise (hupgraded.trans (extends_credit l _)).marks,fun a code hne hcode => ?_⟩
  refine code_finalise _ ?_ hne ?_
  · rw [obj_credit]
    exact hcode
  · obtain ⟨_,_,hobj⟩ := b.obj_upgraded w.db a
    rw [obj_credit,hobj]
    dsimp only
    cases ho : w.db.objects.lookup a with
    | none =>
      rw [State.obj,ho]
      rfl
    | some o =>
      rw [State.obj_of_lookup ho]
      exact (hw.settled a o ho).2

end

end StableNet.Evm
