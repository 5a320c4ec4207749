import StableNet.Pool.TipHistory

/-! What an account owes for the pooled transactions, as sender and as payer of their gas, and that it has it. An
addition looks at two accounts only. -/
namespace StableNet.Pool
open Chain (Address Header)
open Lib
open TxList (items)

namespace Tx

/-- What the transaction can take from an account. -/
def takes (tx : Tx) (a : Address) : ℕ := (if a=tx.src then tx.value else 0)+if a=tx.gasPayer then tx.feeCost else 0

lemma takes_eq (tx : Tx) (a : Address) : tx.takes a = (if a=tx.src then tx.senderCost else 0)+tx.feeFor a := by
  have hcost : tx.cost = tx.value+tx.feeCost := by
    rw [feeCost_eq,cost,Nat.add_comm]
  unfold takes senderCost feeFor gasPayer
  cases tx.feeDelegated with
  | true => simp [eq_comm]
  | false =>
    by_cases ha : a=tx.src
    · simp [ha,hcost]
    · simp [ha]

end Tx

/-- What an account owes for some transactions. -/
def owes (txs : List Tx) (a : Address) : ℕ := (txs.map (·.takes a)).sum

lemma owes_append (txs txs' : List Tx) (a : Address) : owes (txs++txs') a = owes txs a+owes txs' a := by
  simp [owes]

namespace LegacyPool
variable {config : Config} {chain : BlockChain} {c : Context} {s s' : LegacyPool} {tx : Tx} {statedb : Evm.StateDB}

/-- The pending transaction in the place of another. -/
def existing (s : LegacyPool) (tx : Tx) : Option Tx := (s.pending.lookup tx.src).bind (·.txs.get tx.nonce)

namespace Books

lemma existingExpenditure (h : Books c [] s) (a : Address) :
    s.options.existingExpenditure a = owes (flat items s.pending) a := by
  have hsent : ((flat items s.pending).map fun tx => if a=tx.src then tx.senderCost else 0).sum =
      (s.pending.lookup a).elim 0 (·.totalcost) := by
    have hothers : ((flat items (s.pending.erase a)).map fun tx => if a=tx.src then tx.senderCost else 0).sum=0 := by
      refine List.sum_eq_zero fun n hn => ?_
      obtain ⟨tx,htx,rfl⟩ := List.mem_map.mp hn
      obtain ⟨b,l,hl,hmem⟩ := exists_of_mem_flat htx
      refine if_neg fun ha => ?_
      by_cases hb : b=a
      · rw [hb,AList.lookup_erase] at hl
        cases hl
      · rw [AList.lookup_erase_ne hb] at hl
        exact hb (((h.kept true b l hl).src tx hmem).symm.trans ha.symm)
    have hperm : (flatAt items s.pending a++flat items (s.pending.erase a)).Perm _ := flatAt_append_flat_erase
    rw [← (hperm.map _).sum_eq,List.map_append,List.sum_append,hothers,Nat.add_zero,flatAt]
    cases hl : s.pending.lookup a with
    | none => rfl
    | some l =>
      have hkept := h.kept true a l hl
      rw [Option.elim_some,Option.elim_some,hkept.total rfl]
      exact congrArg List.sum (List.map_congr_left fun tx htx => if_pos (hkept.src tx htx).symm)
  have hgas := h.gas a
  simp only [options,owes,Tx.takes_eq,List.sum_map_add,hsent,hgas,getD_entry]
  rfl

/-- What the check keeps is what the account owes without the replaced transaction. -/
theorem kept_eq (h : Books c [] s) (tx : Tx) (a : Address) :
    s.options.kept tx a = (owes (flat items s.pending) a : ℤ)-owes (s.existing tx).toList a := by
  have hreplaced : s.options.replaced tx = (s.existing tx).map fun prev => ⟨prev.gasPayer,prev.value,prev.feeCost⟩ :=
    rfl
  rw [← h.existingExpenditure,ValidationOptionsWithState.kept,hreplaced]
  cases hold : s.existing tx with
  | none => simp [owes]
  | some old =>
    obtain ⟨l,hl,hget⟩ := Option.bind_eq_some_iff.mp hold
    have hsrc := (h.kept true _ l hl).src old (SortedMap.get_eq_some.mp hget).1
    simp only [Option.map_some,owes,Option.toList_some,List.map_cons,List.map_nil,List.sum_cons,List.sum_nil,Tx.takes,
      hsrc]
    omega

lemma owes_le (h : Books c [] s) (hfunds : ∀ a, owes (flat items s.pending) a ≤ s.options.balance a)
    (hpayers : s.options.checkExpenditure tx = .ok ()) {txs : List Tx}
    (hperm : ((s.existing tx).toList++txs).Perm (tx::flat items s.pending)) (a : Address) :
    owes txs a ≤ s.options.balance a := by
  have hsum : owes (s.existing tx).toList a+owes txs a = tx.takes a+owes (flat items s.pending) a := by
    rw [← owes_append,owes,(hperm.map _).sum_eq]
    rfl
  by_cases ha : a=tx.src ∨ a=tx.gasPayer
  · obtain ⟨n,hn,hle⟩ := ValidationOptionsWithState.checkExpenditure_ok hpayers ha
    rw [ValidationOptionsWithState.need_eq_ok,h.kept_eq] at hn
    rw [Tx.takes] at hsum
    omega
  · obtain ⟨hsrc,hpayer⟩ := not_or.mp ha
    have := hfunds a
    rw [Tx.takes,if_neg hsrc,if_neg hpayer] at hsum
    omega

end Books

lemma get_listAt_isPending (hqueue : s.queue=∅) (tx : Tx) :
    (Books.listAt s (s.isPending tx) tx.src).txs.get tx.nonce = s.existing tx := by
  unfold existing
  cases hp : s.isPending tx with
  | true =>
    obtain ⟨l,hl,-⟩ := (Option.any_eq_true _ _).mp hp
    simp [Books.listAt,lists,hl]
  | false =>
    have hnone : (s.pending.lookup tx.src).bind (·.txs.get tx.nonce)=none := by
      rw [isPending] at hp
      cases hl : s.pending.lookup tx.src with
      | none => rfl
      | some l => simpa [hl,TxList.contains] using hp
    rw [hnone,Books.listAt,lists,if_neg (by simp),hqueue]
    rfl

/-- Every account has what it owes for the transactions of the pool, in the state that the pool is at. -/
structure Funded (statedb : Evm.StateDB) (s : LegacyPool) : Prop where
  books : ∃ c, Books c [] s ∧ c.state=statedb
  funds : ∀ a, owes s.held a ≤ (statedb.getBalance a).toNat

namespace Funded

lemma of_subperm (h : Funded statedb s) (hbooks : ∃ c, Books c [] s' ∧ c.state=statedb)
    (hsub : s'.held.Subperm s.held) : Funded statedb s' := by
  refine ⟨hbooks,fun a => le_trans ?_ (h.funds a)⟩
  obtain ⟨txs,hperm,hsublist⟩ := hsub
  obtain ⟨lost,hlost⟩ := hsublist.exists_perm_append
  have hsum : owes s.held a = owes txs a+owes lost a := by
    rw [← owes_append,owes,(hlost.map _).sum_eq]
    rfl
  rw [hsum,owes,← (hperm.map _).sum_eq]
  exact Nat.le_add_right _ _

lemma addTxs (h : Funded statedb s) (hqueue : s.queue=∅) (a : Arrival) (asLocal : Bool)
    (hroom : s.all.slots+a.tx.numSlots ≤ config.globalSlots+config.globalQueue) :
    Post Panic.Other (Funded statedb) (s.addTxs config chain [a] asLocal) := by
  obtain ⟨c,hbooks,rfl⟩ := h.books
  have hheld : s.held=flat items s.pending := by
    rw [held,hqueue]
    exact List.append_nil _
  have hbalance (b : Address) : s.options.balance b = (c.state.getBalance b).toNat := by
    rw [← hbooks.context]
    rfl
  rw [LegacyPool.addTxs,List.filter_singleton]
  generalize (!s.all.get a.tx && _) = valid
  cases valid with
  | false => exact .ok h
  | true =>
    refine Post.bind ((hbooks.add a _).bind fun r hr => .ok ?_) fun s' hs' => .ok hs'
    obtain ⟨⟨caps,admissions,hafter⟩,hplaced⟩ := hr
    rcases hplaced hroom with hperm | ⟨hpayers,hperm⟩
    · exact h.of_subperm ⟨_,hafter,rfl⟩ hperm.subperm
    · rw [get_listAt_isPending hqueue,hheld] at hperm
      refine ⟨⟨_,hafter,rfl⟩,fun b => ?_⟩
      rw [← hbalance]
      exact hbooks.owes_le (fun b => by rw [hbalance,← hheld]; exact h.funds b) hpayers hperm b

lemma promoteExecutables (h : Funded statedb s) (accounts : List Address) :
    Post Panic.Other (Funded statedb) (s.promoteExecutables config chain accounts) := by
  refine Post.foldlM (fun s addr hs => ?_) accounts h
  obtain ⟨c,hbooks,hstate⟩ := hs.books
  exact (hbooks.promoteAccount addr).mono fun _ hr => hs.of_subperm ⟨c,hr.1,hstate⟩ hr.2

end Funded

/-- Runs at a fixed state, in a pool with room, in which a transaction that replaces no pending one is promoted before
the next one comes. -/
inductive Served (config : Config) (chain : BlockChain) (statedb : Evm.StateDB) : LegacyPool → Prop where
  | init (gasTip : ℕ) (head : Header) (locals : List Address) (walks : ℕ → List Tx) :
      Served config chain statedb (init chain gasTip head statedb locals walks)
  | offer {s s' s'' : LegacyPool} {a : Arrival} {asLocal : Bool} {dirty : List Address}
      (h : Served config chain statedb s) (hroom : s.all.slots+a.tx.numSlots ≤ config.globalSlots+config.globalQueue)
      (hadd : s.addTxs config chain [a] asLocal = .ok s')
      (hpromote : s'.promoteExecutables config chain dirty = .ok s'') (hqueue : s''.queue=∅) :
      Served config chain statedb s''

lemma Served.funded (h : Served config chain statedb s) : Funded statedb s ∧ s.queue=∅ := by
  induction h with
  | init gasTip head locals walks =>
    obtain ⟨c,h⟩ := InOrder.init chain gasTip head statedb locals walks
    exact ⟨⟨⟨c,h,by rw [← h.context]; rfl⟩,fun _ => Nat.zero_le _⟩,rfl⟩
  | offer _ hroom hadd hpromote hqueue ih =>
    exact ⟨((ih.1.addTxs ih.2 _ _ hroom).of_ok hadd |>.promoteExecutables _).of_ok hpromote,hqueue⟩

/-- No account owes more for the pending transactions than it has. -/
theorem no_overdraft (h : Served config chain statedb s) (a : Address) :
    owes (flat items s.pending) a ≤ (statedb.getBalance a).toNat := by
  have hfunds := h.funded.1.funds a
  rw [held,owes_append] at hfunds
  exact (Nat.le_add_right _ _).trans hfunds

namespace Replacement
open Sponsored RaisedTip

/-- A transfer that a contract pays for. -/
def sponsored (nonce : BitVec 64) : Tx :=
  { transfer with inner := { transfer.inner with nonce, gasFeeCap := 2*10^13+1 } }

/-- The sender pays for the first one itself. -/
def replacement : Tx := { transfer with inner := { transfer.inner with
  gasFeeCap := 3*10^13
  gasTipCap := 2
  feePayer := some transfer.src } }

def offer (s : LegacyPool) (tx : Tx) : Except Panic LegacyPool := do
  let s ← s.addTxs RaisedTip.config Sponsored.chain [arrival tx none] false
  s.promoteExecutables RaisedTip.config Sponsored.chain [tx.src]

/-- Nothing is queued, and there is room. -/
def settled (s : LegacyPool) : Bool := s.queue.entries.isEmpty && s.all.slots<10

lemma served_offer {tx : Tx} (h : Served RaisedTip.config Sponsored.chain world.db s) (hs : settled s)
    (htx : tx.numSlots=1) (hoffer : offer s tx = .ok s') (hs' : settled s') :
    Served RaisedTip.config Sponsored.chain world.db s' := by
  simp only [settled,Bool.and_eq_true,List.isEmpty_iff,decide_eq_true_eq] at hs hs'
  obtain ⟨next,hadd,hpromote⟩ := bind_eq_ok.mp hoffer
  have hroom : s.all.slots+tx.numSlots ≤ 5120+1024 := by omega
  exact .offer h hroom hadd hpromote (AList.ext hs'.1)

/-- A contract pays for two transfers, then the sender for the first one. -/
theorem sponsors_funded : ∃ s s', Served RaisedTip.config Sponsored.chain world.db s ∧ offer s replacement = .ok s' ∧
    flat items s.pending = [sponsored 0,sponsored 1] ∧ flat items s'.pending = [replacement,sponsored 1] ∧
    owes [sponsored 0,sponsored 1] transfer.feePayer ≤ (world.db.getBalance transfer.feePayer).toNat ∧
    ∀ a, owes [replacement,sponsored 1] a ≤ (world.db.getBalance a).toNat := by
  obtain ⟨s₁,h₁,htest⟩ := exists_of_holds (x := offer start (sponsored 0))
    (P := fun s => settled s && holds (offer s (sponsored 1)) fun s => settled s &&
      flat items s.pending = [sponsored 0,sponsored 1] && holds (offer s replacement) fun s => settled s &&
        flat items s.pending = [replacement,sponsored 1]) (by decide +kernel)
  rw [Bool.and_eq_true] at htest
  obtain ⟨s₂,h₂,htest₂⟩ := exists_of_holds htest.2
  simp only [Bool.and_eq_true,decide_eq_true_eq] at htest₂
  obtain ⟨s₃,h₃,htest₃⟩ := exists_of_holds htest₂.2
  simp only [Bool.and_eq_true,decide_eq_true_eq] at htest₃
  have hserved := served_offer (.init 0 head [] _) (by decide +kernel) (by decide) h₁ htest.1
  have hserved₂ := served_offer hserved htest.1 (by decide) h₂ htest₂.1.1
  have hserved₃ := served_offer hserved₂ htest₂.1.1 (by decide) h₃ htest₃.1
  refine ⟨s₂,s₃,hserved₂,h₃,htest₂.1.2,htest₃.2,?_,fun a => ?_⟩
  · rw [← htest₂.1.2]
    exact no_overdraft hserved₂ _
  · rw [← htest₃.2]
    exact no_overdraft hserved₃ a

end Replacement

end LegacyPool

end StableNet.Pool
