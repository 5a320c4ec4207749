import StableNet.Evm.Settlement

/-! The blacklisted and the authorized bit of an account: which steps change them, and what the blacklist
keeps from running. -/
namespace StableNet.Evm
open Chain
open Lib
open StateDB
variable {w w' : World} {b : Block}
variable {p p' : Progress} {receipts : List Receipt} {vm : Vm} {special : Address → Prop} {ro : Bool}

/-- What transactions and ends of blocks, in any order, lead to. -/
inductive Network.Run (net : Network) : World → World → Prop where
  | refl (w : World) : Run net w w
  | tx {w : World} {b : Block} {p p' : Progress} {tx : Transaction} {receipt : Receipt}
      (hrun : Run net w p.world) (htx : net.applyTransaction b p tx = .ok (receipt,p')) : Run net w p'.world
  | finalize {w w' w'' : World} {b : Block} (hrun : Run net w w') (hend : finalize b w' = .ok w'') :
      Run net w w''

namespace Network
variable {net : Network}

lemma Run.trans {w'' : World} (h : net.Run w w') (h' : net.Run w' w'') : net.Run w w'' := by
  induction h' with
  | refl => exact h
  | tx _ htx ih => exact .tx ih htx
  | finalize _ hend ih => exact .finalize ih hend

lemma run_applyTransactions {txs : List Transaction} (h : net.applyTransactions b txs p = .ok (receipts,p')) :
    net.Run p.world p'.world := by
  induction txs generalizing p receipts with
  | nil =>
    cases h
    exact .refl _
  | cons tx txs ih =>
    obtain ⟨receipt,q,_,htx,hrest,rfl⟩ := applyTransactions_cons h
    exact (Run.tx (.refl _) htx).trans (ih hrest)

lemma run_process (h : net.process b w = .ok (receipts,w')) : net.Run w w' := by
  obtain ⟨p,htxs,hend,_⟩ := process_ok h
  exact (run_applyTransactions htxs).trans (.finalize (.refl _) hend)

lemma run_processChain {blocks : List Block} (h : net.processChain blocks w = .ok w') : net.Run w w' := by
  induction blocks generalizing w with
  | nil =>
    obtain rfl : w=w' := by simpa [processChain] using h
    exact .refl _
  | cons b blocks ih =>
    simp only [processChain,bind_eq_ok,Prod.exists] at h
    obtain ⟨_,w'',hblock,hrest⟩ := h
    exact (run_process hblock).trans (ih hrest)

end Network

def StateObject.flagged (o : StateObject) : Bool := o.hasFlag .blacklisted || o.hasFlag .authorized

lemma StateObject.flagged_of_hasFlag {o : StateObject} {f : Flag} (h : o.hasFlag f=true) : o.flagged=true := by
  cases f <;> simp [flagged,h]

namespace Event

/-- A call of the council to the account manager for this bit. -/
def Governs (council : Address) (f : Flag) (a : Address) (e : Event) : Prop :=
  e.step = .native council (.setFlag f a) ∨ e.step = .native council (.clearFlag f a)

instance (council : Address) (f : Flag) (a : Address) (e : Event) : Decidable (e.Governs council f a) :=
  inferInstanceAs (Decidable (_ ∨ _))

/-- The bit is lost with the object of the account: a contract is created over it, or the account was
given the bit after it had self-destructed. -/
def Drops (f : Flag) (a : Address) (e : Event) : Prop :=
  e.before.hasFlag f a=true ∧
    match e.step with
    | .create _ address _ => address=a
    | .finalise => (e.before.obj a).selfDestructed=true
    | _ => False

/-- No bit is lost with an object: contracts are created at addresses without bits, and no account that
has self-destructed has one at the end of the transaction. -/
def KeepsBits (e : Event) : Prop :=
  match e.step with
  | .create _ address _ => (e.before.obj address).flagged=false
  | .finalise => ∀ account ∈ e.before.objects.entries,
      account.2.selfDestructed=true → account.2.flagged=false
  | _ => True

instance : DecidablePred KeepsBits
  | ⟨.create _ address _,before⟩ => inferInstanceAs (Decidable ((before.obj address).flagged=false))
  | ⟨.finalise,before⟩ => inferInstanceAs (Decidable (∀ account ∈ before.objects.entries,
      account.2.selfDestructed=true → account.2.flagged=false))
  | ⟨.call _ _ _,_⟩ | ⟨.selfdestruct _ _,_⟩ | ⟨.native _ _,_⟩ | ⟨.frame _,_⟩ => .isTrue trivial

lemma KeepsBits.not_drops {e : Event} (h : e.KeepsBits) (f : Flag) (a : Address) : ¬e.Drops f a := by
  rintro ⟨hflag,hstep⟩
  rw [hasFlag_eq] at hflag
  have hflagged := StateObject.flagged_of_hasFlag hflag
  obtain ⟨step,before⟩ := e
  cases step with
  | create caller address value =>
    obtain rfl : address=a := hstep
    exact Bool.false_ne_true ((h : (before.obj address).flagged=false).symm.trans hflagged)
  | finalise =>
    cases hlookup : before.objects.lookup a with
    | none =>
      -- an account without an object has no bits
      have hnew : StateObject.new.hasFlag f=false := by cases f <;> decide
      simp [State.obj,hlookup,hnew] at hflag
    | some o =>
      have hobj := State.obj_of_lookup hlookup
      have hentry := h _ (Finmap.mem_lookup_iff.mp hlookup) (by rw [← hobj]; exact hstep)
      exact Bool.false_ne_true (hentry.symm.trans (by rw [← hobj]; exact hflagged))
  | call | selfdestruct | native | frame => exact hstep

end Event

/-- Every changed bit is explained by one of the steps. -/
def BitsExplained (council : Address) (l : List Event) (db db' : StateDB) : Prop :=
  ∀ f a, db'.hasFlag f a ≠ db.hasFlag f a → ∃ e ∈ l, e.Governs council f a ∨ e.Drops f a

namespace BitsExplained
variable {council : Address} {l l' : List Event} {db db' db'' : StateDB}

lemma of_extra (h : ∀ a, (db'.obj a).extra = (db.obj a).extra) : BitsExplained council l db db' := by
  intro f a hne
  rw [hasFlag_eq,hasFlag_eq,StateObject.hasFlag,StateObject.hasFlag,h a] at hne
  exact absurd rfl hne

lemma trans (h : BitsExplained council l db db') (h' : BitsExplained council l' db' db'') :
    BitsExplained council (l'++l) db db'' := by
  intro f a hne
  by_cases hfirst : db'.hasFlag f a = db.hasFlag f a
  · obtain ⟨e,he,hexpl⟩ := h' f a (hfirst ▸ hne)
    exact ⟨e,List.mem_append_left _ he,hexpl⟩
  · obtain ⟨e,he,hexpl⟩ := h f a hfirst
    exact ⟨e,List.mem_append_right _ he,hexpl⟩

lemma composes (council : Address) : Composes fun _ => BitsExplained council where
  reverted _ _ _ := of_extra fun _ => rfl
  trans := trans
  mono h := h

end BitsExplained

section Steps
variable {db : StateDB} {a b : Address}

lemma NativeCall.explained (vm : Vm) (db : StateDB) (op : CallKind) (caller : Address) (call : NativeCall)
    (hperm : call.Permitted vm op caller) :
    BitsExplained vm.govCouncil [⟨.native caller call,db⟩] db (call.apply vm db) := by
  cases call with
  | mint | transfer => exact .of_extra fun a => by rw [apply,Vm.obj_nativeTransfer]
  | burn =>
    refine .of_extra fun a => ?_
    rw [apply,Vm.addTransferLog,obj_addLog,obj_subBalance]
    split
    · rw [‹a = _›]
    · rfl
  | hasFlag => exact .of_extra fun _ => rfl
  | setFlag g b =>
    obtain ⟨-,rfl⟩ := hperm
    intro f a hne
    rw [apply,hasFlag_eq,hasFlag_eq,obj_setFlag] at hne
    by_cases ha : a=b
    · subst ha
      by_cases hf : f=g
      · subst hf
        exact ⟨_,List.mem_singleton_self _,.inl (.inl rfl)⟩
      · simp [StateObject.hasFlag,hf] at hne
    · simp [ha] at hne
  | clearFlag g b =>
    obtain ⟨-,rfl⟩ := hperm
    intro f a hne
    rw [apply,hasFlag_eq,hasFlag_eq,obj_clearFlag] at hne
    by_cases ha : a=b
    · subst ha
      by_cases hf : f=g
      · subst hf
        exact ⟨_,List.mem_singleton_self _,.inl (.inr rfl)⟩
      · simp [StateObject.hasFlag,hf] at hne
    · simp [ha] at hne

lemma Prim.explained (h : Prim vm special ro w w') :
    ∃ new, w'.kept = new++w.kept ∧ BitsExplained vm.govCouncil new w.db w'.db := by
  cases h with
  | tick | log => exact ⟨[],rfl,.of_extra fun _ => rfl⟩
  | refunds ch => exact ⟨[],rfl,.of_extra fun a => by rw [Vm.obj_refunds]⟩
  | sstore key value =>
    refine ⟨[],rfl,.of_extra fun a => ?_⟩
    rw [obj_setState]
    split
    · rw [‹a = _›]
    · rfl
  | tstore self key value => exact ⟨[],rfl,.of_extra fun a => by rw [obj_setTransientState]⟩
  | selfdestruct =>
    refine ⟨[_],rfl,.of_extra fun a => ?_⟩
    rw [Vm.obj_selfdestruct6780]
    split
    · rw [‹a = _ ∧ _›.1]
    · rfl
  | callEnter => exact ⟨[_],rfl,.of_extra fun a => by rw [Vm.obj_callEnter]⟩
  | touch addr =>
    refine ⟨[],rfl,.of_extra fun a => ?_⟩
    rw [obj_addBalance]
    split
    · rw [‹a = _›]
    · rfl
  | bumpNonce =>
    refine ⟨[],rfl,.of_extra fun a => ?_⟩
    rw [obj_setNonce]
    split
    · rw [‹a = _›]
    · rfl
  | @createEnter w caller address value =>
    refine ⟨[_],rfl,?_⟩
    intro f a hne
    refine ⟨_,List.mem_singleton_self _,.inr ?_⟩
    rw [hasFlag_eq,hasFlag_eq,Vm.obj_createEnter] at hne
    by_cases ha : a=address
    · -- the new object has no bits, so the old one had this one
      subst ha
      have hnew : StateObject.new.hasFlag f=false := by cases f <;> decide
      refine ⟨?_,rfl⟩
      rw [hasFlag_eq]
      cases hold : (w.db.obj a).hasFlag f with
      | true => rfl
      | false =>
        rw [if_pos rfl,hold] at hne
        exact absurd hnew hne
    · rw [if_neg ha] at hne
      exact absurd rfl hne
  | setCode code =>
    refine ⟨[],rfl,.of_extra fun a => ?_⟩
    rw [obj_setCode]
    split
    · rw [‹a = _›]
    · rfl
  | native _ hperm _ => exact ⟨[_],rfl,NativeCall.explained vm w.db _ _ _ hperm⟩
  | frame => exact ⟨[_],rfl,.of_extra fun _ => rfl⟩

lemma explained_finalise (council : Address) (w : World) :
    BitsExplained council [⟨.finalise,w.db⟩] w.db w.finalise.db := by
  intro f a hne
  refine ⟨_,List.mem_singleton_self _,.inr ?_⟩
  change w.db.finalise.hasFlag f a ≠ w.db.hasFlag f a at hne
  cases hdestructed : (w.db.obj a).selfDestructed with
  | false =>
    rw [hasFlag_eq,hasFlag_eq,StateObject.hasFlag,StateObject.hasFlag,extra_finalise hdestructed] at hne
    exact absurd rfl hne
  | true =>
    refine ⟨?_,hdestructed⟩
    have hnew : StateObject.new.hasFlag f=false := by cases f <;> decide
    cases hold : w.db.hasFlag f a with
    | true => rfl
    | false =>
      rw [hold,hasFlag_eq,obj_finalise] at hne
      rw [hasFlag_eq] at hold
      split at hne
      · rw [StateObject.finalised] at hne
        split at hne
        · exact absurd hnew hne
        · exact absurd hold hne
      · exact absurd hold hne

end Steps

namespace Network
variable {net : Network}

lemma explained_applyTransaction {tx : Transaction} {receipt : Receipt}
    (h : net.applyTransaction b p tx = .ok (receipt,p')) :
    ∃ new, p'.world.kept = new++p.world.kept ∧ BitsExplained net.govCouncil new p.world.db p'.world.db := by
  obtain ⟨msg,gas,result,w',-,hadmitted,hcomplete,hp',-⟩ := applyTransaction_ok h
  obtain ⟨-,-,-,-,hw'⟩ := complete_ok hcomplete
  set w : World := { p.world with db := p.world.db.setTxContext }
  set vm := net.vm b msg
  obtain ⟨-,new,hkept,hbits⟩ := vm.executeMessage_rel msg (msg.gasLimit-gas) (msg.start w)
    ((BitsExplained.composes vm.govCouncil).closed Prim.explained)
  set o := vm.executeMessage msg (msg.gasLimit-gas) (msg.start w)
  have heoa : isEOA (msg.start w).db msg.src=true := by
    rw [isEOA,getCode_eq,Message.obj_start,← getCode_eq]
    exact hadmitted.eoa
  have hstart : BitsExplained net.govCouncil [] p.world.db (vm.entry msg (msg.start w)).db := .of_extra fun a => by
    rw [(Vm.delegates_entry heoa).extra,Message.obj_start]
    rfl
  have hpaid : BitsExplained net.govCouncil [] o.2.db w'.db := .of_extra fun a => by
    rw [hw',obj_logAuthorized,obj_paid]
  rw [hp']
  refine ⟨[⟨.finalise,w'.db⟩]++([]++(new++[])),?_,
    (((hstart.trans hbits).trans hpaid).trans (explained_finalise _ w'))⟩
  change _::w'.kept = _
  rw [hw']
  simpa [w,Message.start] using hkept

lemma explained_finalize (net : Network) (h : finalize b w = .ok w') :
    ∃ new, w'.kept = new++w.kept ∧ BitsExplained net.govCouncil new w.db w'.db := by
  obtain ⟨db,hdb,rfl⟩ := finalize_ok h
  have hupgrade (a : Address) : ((b.upgraded w.db).obj a).extra = (w.db.obj a).extra := by
    obtain ⟨_,_,hobj⟩ := b.obj_upgraded w.db a
    rw [hobj]
  have hpaid : BitsExplained net.govCouncil [] w.db db := .of_extra fun a => by
    obtain ⟨-,rfl⟩ | ⟨_,l,-,-,rfl,-⟩ := distributeBaseFee_ok hdb
    · exact hupgrade a
    · rw [obj_credit]
      exact hupgrade a
  exact ⟨[_]++[],rfl,hpaid.trans (explained_finalise _ { w with db := db })⟩

lemma Run.explained (h : net.Run w w') :
    ∃ new, w'.kept = new++w.kept ∧ BitsExplained net.govCouncil new w.db w'.db := by
  induction h with
  | refl => exact ⟨[],rfl,.of_extra fun _ => rfl⟩
  | tx _ htx ih =>
    obtain ⟨new,hkept,hbits⟩ := ih
    obtain ⟨new',hkept',hbits'⟩ := explained_applyTransaction htx
    exact ⟨new'++new,by rw [hkept',hkept,List.append_assoc],hbits.trans hbits'⟩
  | finalize _ hend ih =>
    obtain ⟨new,hkept,hbits⟩ := ih
    obtain ⟨new',hkept',hbits'⟩ := explained_finalize net hend
    exact ⟨new'++new,by rw [hkept',hkept,List.append_assoc],hbits.trans hbits'⟩

/-- In a run that drops no bits with an object, a bit changes only by a call of the council. -/
theorem Run.bit_changed_by_council {w w' : World} (h : net.Run w w')
    (hkeeps : ∀ e ∈ w.keptSince w', e.KeepsBits) {f : Flag} {a : Address}
    (hne : w'.db.hasFlag f a ≠ w.db.hasFlag f a) : ∃ e ∈ w.keptSince w', e.Governs net.govCouncil f a := by
  obtain ⟨new,hkept,hbits⟩ := h.explained
  rw [World.keptSince_eq hkept] at hkeeps ⊢
  obtain ⟨e,he,hgoverns | hdrops⟩ := hbits f a hne
  · exact ⟨e,he,hgoverns⟩
  · exact absurd hdrops ((hkeeps e he).not_drops f a)

end Network

lemma Prim.frame_named (h : Prim vm special ro w w') :
    World.Traced (fun e => ∀ addr, e.step = .frame addr → e.before.isBlacklisted addr=false) w w' := by
  cases h with
  | tick | refunds | sstore | tstore | log | touch | bumpNonce | setCode => exact .refl _ rfl
  | selfdestruct | callEnter | createEnter | native => exact ⟨[_],rfl,by simp⟩
  | frame haddr => exact ⟨[_],rfl,by simpa using haddr⟩

namespace SingleSender

def sender : Address := 0xa11ce

def contract : Address := 0x6b182f1488e8efeb2eb298155ed5bd7ff8a14042

/-- A chain on which only the code of one `STOP` runs. -/
def net : Network where
  chainId := 8282
  nativeCoinAdapter := 0x1000
  govCouncil := 0x1004
  precompiles _ := ⟨fun _ => 0,fun _ => .ok []⟩
  createAddress _ _ := contract
  createAddress2 _ _ _ := 0
  interp _ _ := .halt .stop
  charges _ := ⟨0,0,0⟩

def account : StateObject := { StateObject.new with balance := 10^18, created := false }

def world (objects : List (Address × StateObject)) : World :=
  ⟨⟨⟨objects.foldl (fun m o => m.insert o.1 o.2) ∅,[],0,fun _ _ => 0⟩,[],false⟩,0,[],[]⟩

def transaction (dst : Option Address) (value : ℕ) (data : Bytes) : Transaction where
  sender := some sender
  nonce := 0
  gas := 100000
  gasFeeCap := 10
  gasTipCap := 1
  dst
  value
  data
  accessList := none
  setCodeAuthorizations := none
  feeDelegated := false
  feePayer := none

def header (gasUsed : ℕ) : Header where
  uncleHash := 0
  coinbase := 0xc0
  root := 0
  txHash := 0
  receiptHash := 0
  bloom := 0
  difficulty := wbftDefaultDifficulty
  number := 1
  gasLimit := 30000000
  gasUsed
  time := 1
  mixDigest := 0
  nonce := 0
  baseFee := some 5
  withdrawalsHash := none
  blobGasUsed := none
  excessBlobGas := none
  parentBeaconRoot := none
  parentHash := .zero
  extra := .wbft ⟨[],[],0,none,none,0,none,none,some 1,none⟩

def block (gasUsed : ℕ) (tx : Transaction) : Block :=
  ⟨header gasUsed,true,[tx],some ⟨[⟨0xc0,1⟩],[0],[]⟩,none⟩

/-- The blacklist has the address of a contract that does not exist yet. -/
def listed : World := world [(sender,account),(contract,{ account with extra := Flag.mask .blacklisted })]

def creation : Block := block 53004 (transaction none 0 [0x00])

/-- Creating a contract takes its address off the blacklist, without the council. -/
theorem creation_clears_bit : ∃ w, net.processChain [creation] listed = .ok w ∧
    listed.db.hasFlag .blacklisted contract=true ∧ w.db.hasFlag .blacklisted contract=false ∧
    ∀ e ∈ listed.keptSince w, ¬e.Governs net.govCouncil .blacklisted contract := by
  obtain ⟨w,hw,hcheck⟩ := exists_of_holds (x := net.processChain [creation] listed)
    (P := fun w => !w.db.hasFlag .blacklisted contract &&
      decide (∀ e ∈ listed.keptSince w, ¬e.Governs net.govCouncil .blacklisted contract)) (by decide +kernel)
  simp only [Bool.and_eq_true,Bool.not_eq_true',decide_eq_true_eq] at hcheck
  exact ⟨w,hw,by decide +kernel,hcheck.1,hcheck.2⟩

/-- The same chain with a council whose code puts the address on the blacklist. -/
def councilNet : Network :=
  { net with
    interp := fun _ _ => .op (.call .call 50000 accountManagerAddress 0
      (encodeCall accountManagerBlacklistSelector [addressWord contract])) fun _ => .halt .stop }

def councilWorld : World := world [(sender,account),(net.govCouncil,{ account with code := [0x00] })]

def listing : Block := block 50500 (transaction (some net.govCouncil) 0 [])

theorem listing_by_council : ∃ w, councilNet.Run councilWorld w ∧
    ∃ e ∈ councilWorld.keptSince w, e.Governs councilNet.govCouncil .blacklisted contract := by
  obtain ⟨w,hw,hcheck⟩ := exists_of_holds (x := councilNet.processChain [listing] councilWorld)
    (P := fun w => decide (∀ e ∈ councilWorld.keptSince w, e.KeepsBits) &&
      decide (w.db.hasFlag .blacklisted contract ≠ councilWorld.db.hasFlag .blacklisted contract))
    (by decide +kernel)
  simp only [Bool.and_eq_true,decide_eq_true_eq] at hcheck
  have hrun := Network.run_processChain hw
  exact ⟨w,hrun,hrun.bit_changed_by_council hcheck.1 hcheck.2⟩

/-- An account that has delegated to a blacklisted contract. -/
def wallet : Address := 0x3a11e7

def target : Address := 0x7a59e7

def delegated (extra : BitVec 64) : World :=
  world [(sender,account),(wallet,{ account with code := addressToDelegation target }),
    (target,{ account with code := [0x00], nonce := 1, extra })]

def walletCall : Message :=
  ⟨sender,some wallet,0,0,100000,6,10,1,[],none,none,none⟩

end SingleSender

end StableNet.Evm
