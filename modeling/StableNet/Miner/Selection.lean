import StableNet.Miner.Ordering

/-! Taking transactions account by account: the next one is the best head, and every account is taken in the order of
its list. -/
namespace StableNet.Miner
open Chain (Address)
open Lib List
variable {tx : LazyTransaction} {trace : List (TxWithMinerFee × Call)}

/-- The pending transactions of one account, sorted by nonce. -/
structure Pending where
  account : Address
  txs : List LazyTransaction
  nonempty : txs ≠ []

/-- The heap of the first transactions, and the rest of every account's list. -/
structure TransactionsByPriceAndNonce where
  txs : Address → List LazyTransaction
  heads : List TxWithMinerFee
  baseFee : Option ℕ
  headerTip : Option ℕ
  anzeonEnabled : Bool
  isAuthorized : Address → Bool

/-- Looked up once for all accounts; everybody is unauthorized without the Anzeon rules or without a state. -/
def isAuthorizedMap (pending : List Pending) (anzeonEnabled : Bool) (stateDB : Option Evm.StateDB) (a : Address) :
    Bool :=
  anzeonEnabled && pending.any (·.account = a) && stateDB.any (·.isAuthorized a)

/-- The heads with the rest of their lists, in the order in which the map is ranged over. An account whose first
transaction cannot pay the base fee is deleted. -/
def entries (pending : List Pending) (baseFee headerTip : Option ℕ) (isAuthorized : Address → Bool) :
    List (TxWithMinerFee × List LazyTransaction) :=
  pending.filterMap fun p =>
    match newTxWithMinerFee (p.txs.head p.nonempty) p.account baseFee headerTip (isAuthorized p.account) with
    | .error _ => none
    | .ok wrapped => some (wrapped,p.txs.tail)

def newTransactionsByPriceAndNonce (pending : List Pending) (baseFee headerTip : Option ℕ) (anzeonEnabled : Bool)
    (stateDB : Option Evm.StateDB) : TransactionsByPriceAndNonce :=
  let isAuthorized := isAuthorizedMap pending anzeonEnabled stateDB
  let entered := entries pending baseFee headerTip isAuthorized
  { txs := fun a => ((entered.find? (·.1.src = a)).map (·.2)).getD []
    heads := Heap.init (less anzeonEnabled isAuthorized) (entered.map (·.1))
    baseFee := baseFee
    headerTip := headerTip
    anzeonEnabled := anzeonEnabled
    isAuthorized := isAuthorized }

namespace Pending

lemma takeWhile_txs (p : Pending) (f : LazyTransaction → Bool) : p.txs.takeWhile f =
    if f (p.txs.head p.nonempty) then p.txs.head p.nonempty::p.txs.tail.takeWhile f else [] := by
  obtain ⟨account,txs,hne⟩ := p
  cases txs with
  | nil => exact absurd rfl hne
  | cons tx txs =>
    rw [takeWhile_cons]
    rfl

end Pending

inductive Call where
  | shift
  | pop
  deriving DecidableEq

namespace TransactionsByPriceAndNonce

def order (t : TransactionsByPriceAndNonce) : TxWithMinerFee → TxWithMinerFee → Bool :=
  less t.anzeonEnabled t.isAuthorized

def peek (t : TransactionsByPriceAndNonce) : Option (LazyTransaction × ℕ) := t.heads.head?.map fun h => (h.tx,h.fees)

def wrap (t : TransactionsByPriceAndNonce) (tx : LazyTransaction) (acc : Address) :
    Except OrderingError TxWithMinerFee :=
  newTxWithMinerFee tx acc t.baseFee t.headerTip (t.isAuthorized acc)

/-- Without a head both calls panic. -/
def pop (t : TransactionsByPriceAndNonce) : Option TransactionsByPriceAndNonce :=
  (Heap.pop t.order t.heads).map fun x => { t with heads := x.2 }

/-- The next transaction of the account takes its place. -/
def shift (t : TransactionsByPriceAndNonce) : Option TransactionsByPriceAndNonce :=
  match t.heads with
  | [] => none
  | h::rest =>
    match t.txs h.src with
    | [] => t.pop
    | tx::txs =>
      match t.wrap tx h.src with
      | .error _ => t.pop
      | .ok wrapped => some { t with
          heads := Heap.fix t.order 0 (wrapped::rest)
          txs := Function.update t.txs h.src txs }

def step (t : TransactionsByPriceAndNonce) : Call → Option TransactionsByPriceAndNonce
  | .shift => t.shift
  | .pop => t.pop

/-- Calls one after the other, each with the head that `peek` shows before it. -/
inductive Run (start : TransactionsByPriceAndNonce) : List (TxWithMinerFee × Call) → TransactionsByPriceAndNonce → Prop
  | refl : Run start [] start
  | call {trace t t' h c} (before : Run start trace t) (head : t.heads.head? = some h) (next : t.step c = some t') :
      Run start (trace++[(h,c)]) t'

end TransactionsByPriceAndNonce

/-- The fee cap covers the base fee. -/
def payable (baseFee : Option ℕ) (tx : LazyTransaction) : Bool := baseFee.all (· ≤ tx.gasFeeCap)

lemma newTxWithMinerFee_cases (tx : LazyTransaction) (src : Address) (baseFee headerTip : Option ℕ) (auth : Bool) :
    (payable baseFee tx=true ∧ ∃ fees, newTxWithMinerFee tx src baseFee headerTip auth = .ok ⟨tx,src,fees⟩) ∨
      (payable baseFee tx=false ∧ newTxWithMinerFee tx src baseFee headerTip auth = .error .gasFeeCapTooLow) := by
  cases baseFee with
  | none => exact .inl ⟨rfl,_,rfl⟩
  | some baseFee =>
    simp only [newTxWithMinerFee,payable,Option.all_some,decide_eq_true_eq,decide_eq_false_iff_not,Nat.not_le]
    split
    · exact .inr ⟨‹_›,rfl⟩
    · exact .inl ⟨Nat.not_lt.mp ‹_›,_,rfl⟩

namespace TransactionsByPriceAndNonce
variable {t t' : TransactionsByPriceAndNonce} {h : TxWithMinerFee} {rest : List TxWithMinerFee} {a : Address}

/-- What an account can still give: its head, and what follows up to the first transaction that cannot pay. -/
def queue (t : TransactionsByPriceAndNonce) (a : Address) : List LazyTransaction :=
  match t.heads.find? (·.src = a) with
  | none => []
  | some h => h.tx::(t.txs a).takeWhile (payable t.baseFee)

lemma find?_key {β : Type} (key : β → Address) {l : List β} {x : β} (hnodup : (l.map key).Nodup) (hmem : x ∈ l) :
    l.find? (key · = key x) = some x := by
  induction l with
  | nil => cases hmem
  | cons y ys ih =>
    rw [map_cons,nodup_cons] at hnodup
    rcases mem_cons.mp hmem with rfl | hmem
    · simp
    · have hne : key y ≠ key x := fun heq => hnodup.1 (heq ▸ mem_map_of_mem hmem)
      rw [List.find?_cons_of_neg (by simpa using hne)]
      exact ih hnodup.2 hmem

lemma queue_of_mem (hnodup : (t.heads.map (·.src)).Nodup) (hmem : h ∈ t.heads) :
    t.queue h.src=h.tx::(t.txs h.src).takeWhile (payable t.baseFee) := by
  rw [queue,find?_key TxWithMinerFee.src hnodup hmem]

lemma queue_eq_nil (hnone : ∀ h ∈ t.heads, h.src≠a) : t.queue a = [] := by
  rw [queue,List.find?_eq_none.mpr (by simpa using hnone)]

theorem queue_congr (hnodup : (t.heads.map (·.src)).Nodup) (hnodup' : (t'.heads.map (·.src)).Nodup)
    (hheads : ∀ h, h.src=a → (h ∈ t'.heads ↔ h ∈ t.heads)) (htxs : t'.txs a = t.txs a)
    (hbase : t'.baseFee=t.baseFee) : t'.queue a = t.queue a := by
  by_cases hex : ∃ h ∈ t.heads, h.src=a
  · obtain ⟨h,hmem,rfl⟩ := hex
    rw [queue_of_mem hnodup hmem,queue_of_mem hnodup' ((hheads h rfl).mpr hmem),htxs,hbase]
  · have hnone : ∀ h ∈ t.heads, h.src≠a := fun h hmem heq => hex ⟨h,hmem,heq⟩
    rw [queue_eq_nil hnone,queue_eq_nil fun h hmem heq => hnone h ((hheads h heq).mp hmem) heq]

/-- Well formed: a heap with one head for an account. -/
structure Valid (t : TransactionsByPriceAndNonce) : Prop where
  heap : Heap.IsHeap t.order t.heads
  nodup : (t.heads.map (·.src)).Nodup

/-- The two differ in heads and rests alone. -/
def SameRules (t t' : TransactionsByPriceAndNonce) : Prop := t' = { t with heads := t'.heads, txs := t'.txs }

section
variable (hr : SameRules t t')
include hr

lemma SameRules.order : t'.order=t.order := by rw [hr]; rfl

lemma SameRules.wrap : t'.wrap=t.wrap := by rw [hr]; rfl

lemma SameRules.trans {t'' : TransactionsByPriceAndNonce} (hr' : SameRules t' t'') : SameRules t t'' := by
  rw [SameRules,hr',hr]

end

/-- What a call does: the first head's account gives one transaction or all of its queue, and nothing else changes. -/
structure Advances (t t' : TransactionsByPriceAndNonce) (h : TxWithMinerFee) (c : Call) : Prop where
  valid : t'.Valid
  rules : SameRules t t'
  heads : ∀ h' ∈ t'.heads, h' ∈ t.heads ∨ h'.src=h.src ∧ t.wrap h'.tx h'.src = .ok h'
  queue : ∀ a, t'.queue a = if a=h.src then (if c = .pop then [] else (t.queue a).tail) else t.queue a

lemma Valid.pop (hv : t.Valid) (hheads : t.heads=h::rest) : ∃ t', t.pop = some t' ∧ Advances t t' h .pop := by
  have hless : Heap.WeakOrder t.order := weakOrder_less _ _
  obtain ⟨heads,hpop,hperm,hheap⟩ := Heap.pop_cons hless h rest
  have hnodup := hv.nodup
  rw [hheads,map_cons,nodup_cons] at hnodup
  have hv' : Valid { t with heads := heads } := ⟨hheap (hheads ▸ hv.heap),(hperm.map _).nodup_iff.mpr hnodup.2⟩
  have hmem (h' : TxWithMinerFee) : h' ∈ heads ↔ h' ∈ rest := hperm.mem_iff
  refine ⟨{ t with heads := heads },?_,hv',rfl,?_,?_⟩
  · rw [TransactionsByPriceAndNonce.pop,hheads,hpop]
    rfl
  · intro h' hh'
    exact .inl (hheads ▸ mem_cons_of_mem _ ((hmem h').mp hh'))
  · intro a
    split
    · subst a
      refine queue_eq_nil fun h' hh' heq => hnodup.1 ?_
      rw [← heq]
      exact mem_map_of_mem ((hmem h').mp hh')
    · rename_i hne
      refine queue_congr hv.nodup hv'.nodup (fun h' hh' => ?_) rfl rfl
      have hne' : h'≠h := fun heq => hne (heq ▸ hh'.symm)
      simp [hheads,hne',hmem]

theorem Advances.of_pop (hadv : Advances t t' h .pop) (hqueue : (t.queue h.src).tail = []) :
    Advances t t' h .shift := by
  refine { hadv with queue := fun a => ?_ }
  rw [hadv.queue]
  by_cases ha : a=h.src
  · subst ha
    simp [hqueue]
  · simp [ha]

section
variable (hv : t.Valid) (hheads : t.heads=h::rest)
include hv hheads

lemma Valid.replace {txs : List LazyTransaction}
    {fees : ℕ} (htxs : t.txs h.src=tx::txs) (hpays : payable t.baseFee tx=true)
    (hwrap : t.wrap tx h.src = .ok ⟨tx,h.src,fees⟩) : Advances t { t with
      heads := Heap.fix t.order 0 (⟨tx,h.src,fees⟩::rest)
      txs := Function.update t.txs h.src txs } h .shift := by
  have hperm := Heap.fix_perm t.order 0 (⟨tx,h.src,fees⟩::rest)
  have hnodup := hv.nodup
  rw [hheads,map_cons] at hnodup
  have hv' : Valid { t with
      heads := Heap.fix t.order 0 (⟨tx,h.src,fees⟩::rest)
      txs := Function.update t.txs h.src txs } :=
    ⟨Heap.isHeap_fix_zero (weakOrder_less _ _) (hheads ▸ hv.heap),(hperm.map _).nodup_iff.mpr hnodup⟩
  refine ⟨hv',rfl,?_,?_⟩
  · intro h' hh'
    rcases mem_cons.mp (hperm.mem_iff.mp hh') with rfl | hh'
    · exact .inr ⟨rfl,hwrap⟩
    · exact .inl (by simp [hheads,hh'])
  · intro a
    split
    · subst a
      have hold := queue_of_mem (h := h) hv.nodup (by simp [hheads])
      have hnew := queue_of_mem (h := ⟨tx,h.src,fees⟩) hv'.nodup (hperm.mem_iff.mpr (mem_cons_self ..))
      simp only [Function.update_self] at hnew
      simp [hold,hnew,htxs,hpays]
    · rename_i hne
      refine queue_congr hv.nodup hv'.nodup (fun h' hh' => ?_) (Function.update_of_ne hne ..) rfl
      have hne' : h'≠h := fun heq => hne (heq ▸ hh'.symm)
      have hne'' : h' ≠ ⟨tx,h.src,fees⟩ := fun heq => hne (by rw [← hh',heq])
      simp [hperm.mem_iff,hheads,hne',hne'']

lemma Valid.shift : ∃ t', t.shift = some t' ∧ Advances t t' h .shift := by
  have hqueue := queue_of_mem (h := h) hv.nodup (by simp [hheads])
  obtain ⟨t',hpop,hadv⟩ := hv.pop hheads
  simp only [TransactionsByPriceAndNonce.shift,hheads]
  split
  · rename_i htxs
    exact ⟨t',hpop,hadv.of_pop (by simp [hqueue,htxs])⟩
  · rename_i tx txs htxs
    rcases newTxWithMinerFee_cases tx h.src t.baseFee t.headerTip (t.isAuthorized h.src) with
      ⟨hpays,fees,hwrap⟩ | ⟨hpays,hwrap⟩
    · rw [wrap,hwrap]
      exact ⟨_,rfl,hv.replace hheads htxs hpays hwrap⟩
    · rw [wrap,hwrap]
      exact ⟨t',hpop,hadv.of_pop (by simp [hqueue,htxs,hpays])⟩

lemma Valid.step (c : Call) : ∃ t', t.step c = some t' ∧ Advances t t' h c := by
  cases c with
  | shift => exact hv.shift hheads
  | pop => exact hv.pop hheads

end

def taken (a : Address) (trace : List (TxWithMinerFee × Call)) : List LazyTransaction :=
  (trace.filter (·.1.src = a)).map (·.1.tx)

def popped (a : Address) (trace : List (TxWithMinerFee × Call)) : Bool := trace.any fun x => x.1.src = a && x.2 = .pop

lemma taken_concat (a : Address) (trace : List (TxWithMinerFee × Call)) (h : TxWithMinerFee) (c : Call) :
    taken a (trace++[(h,c)]) = taken a trace++if h.src=a then [h.tx] else [] := by
  rw [taken,filter_append,map_append,← taken]
  split <;> simp [*]

lemma popped_concat (a : Address) (trace : List (TxWithMinerFee × Call)) (h : TxWithMinerFee) (c : Call) :
    popped a (trace++[(h,c)]) = (popped a trace || (h.src = a && c = .pop)) := by
  simp [popped,any_append]

/-- Every account's list, up to the first transaction that cannot pay, is what was taken and then its queue. -/
structure Selects (start : TransactionsByPriceAndNonce) (pending : List Pending)
    (trace : List (TxWithMinerFee × Call)) (t : TransactionsByPriceAndNonce) : Prop where
  valid : t.Valid
  rules : SameRules start t
  heads : ∀ h ∈ t.heads, (∃ p ∈ pending, p.account=h.src) ∧ start.wrap h.tx h.src = .ok h
  lists : ∀ p ∈ pending, ∃ rest, p.txs.takeWhile (payable start.baseFee) = taken p.account trace++rest ∧
    t.queue p.account = if popped p.account trace then [] else rest
  quiet : trace.Pairwise fun x y => x.2 = .pop → y.1.src≠x.1.src

lemma Selects.step {start : TransactionsByPriceAndNonce} {pending : List Pending}
    {c : Call} (hs : Selects start pending trace t)
    (hhead : t.heads.head? = some h) (hstep : t.step c = some t') : Selects start pending (trace++[(h,c)]) t' := by
  obtain ⟨rest,hheads⟩ := List.head?_eq_some_iff.mp hhead
  have hfirst : h ∈ t.heads := by simp [hheads]
  obtain ⟨t'',hstep',hadv⟩ := hs.valid.step hheads c
  rw [hstep] at hstep'
  cases hstep'
  have hqueue := queue_of_mem hs.valid.nodup hfirst
  -- an account with a head was not popped
  have hpopped (p : Pending) (hp : p ∈ pending) (hsrc : p.account=h.src) : popped h.src trace=false := by
    obtain ⟨rest,-,hrest⟩ := hs.lists p hp
    rw [hsrc,hqueue] at hrest
    cases hpop : popped h.src trace with
    | false => rfl
    | true => simp [hpop] at hrest
  refine ⟨hadv.valid,hs.rules.trans hadv.rules,?_,?_,?_⟩
  · intro h' hh'
    rcases hadv.heads h' hh' with hmem | ⟨hsrc,hwrap⟩
    · exact hs.heads h' hmem
    · rw [hs.rules.wrap] at hwrap
      exact ⟨hsrc ▸ (hs.heads h hfirst).1,hwrap⟩
  · intro p hp
    obtain ⟨rest,hlist,hrest⟩ := hs.lists p hp
    rw [hadv.queue,hlist,taken_concat,popped_concat]
    by_cases hsrc : p.account=h.src
    · rw [hsrc,hpopped p hp hsrc,hqueue] at hrest
      simp only [Bool.false_eq_true,if_false] at hrest
      rw [← hrest,hsrc]
      refine ⟨(t.txs h.src).takeWhile (payable t.baseFee),by simp,?_⟩
      cases c <;> simp [hqueue,hpopped p hp hsrc]
    · exact ⟨rest,by simp [Ne.symm hsrc],by simp [hsrc,Ne.symm hsrc,hrest]⟩
  · rw [pairwise_append]
    refine ⟨hs.quiet,pairwise_singleton _ _,?_⟩
    intro x hx y hy hpop heq
    rw [mem_singleton.mp hy] at heq
    obtain ⟨p,hp,haccount⟩ := (hs.heads h hfirst).1
    have hnone := hpopped p hp haccount
    simp only [popped,any_eq_false] at hnone
    exact hnone x hx (by simpa [hpop] using heq.symm)

section Start
variable {pending : List Pending} {baseFee headerTip : Option ℕ} {anzeonEnabled : Bool} {stateDB : Option Evm.StateDB}
  {isAuthorized : Address → Bool}

lemma mem_entries {x : TxWithMinerFee × List LazyTransaction} : x ∈ entries pending baseFee headerTip isAuthorized ↔
    ∃ p ∈ pending, newTxWithMinerFee (p.txs.head p.nonempty) p.account baseFee headerTip (isAuthorized p.account) =
      .ok x.1 ∧ x.2=p.txs.tail := by
  rw [entries,mem_filterMap]
  refine exists_congr fun p => and_congr_right fun _ => ?_
  split
  · simp [*]
  · rename_i wrapped hwrap
    obtain ⟨w,l⟩ := x
    simp [hwrap,eq_comm]

lemma src_of_wrap (hwrap : newTxWithMinerFee tx a baseFee headerTip b = .ok h) :
    h.src=a ∧ h.tx=tx ∧ payable baseFee tx=true := by
  rcases newTxWithMinerFee_cases tx a baseFee headerTip b with ⟨hpays,fees,hok⟩ | ⟨-,herror⟩
  · cases hok.symm.trans hwrap
    exact ⟨rfl,rfl,hpays⟩
  · cases herror.symm.trans hwrap

lemma srcs_entries :
    ((entries pending baseFee headerTip isAuthorized).map (·.1.src)).Sublist (pending.map (·.account)) := by
  induction pending with
  | nil => exact .slnil
  | cons p ps ih =>
    rw [entries,filterMap_cons,map_cons]
    split
    · exact ih.cons _
    · rename_i x hx
      split at hx
      · cases hx
      · rename_i hwrap
        cases hx
        rw [map_cons,(src_of_wrap hwrap).1]
        exact ih.cons_cons _

lemma selects_new (hkeys : (pending.map (·.account)).Nodup) :
    Selects (newTransactionsByPriceAndNonce pending baseFee headerTip anzeonEnabled stateDB) pending []
      (newTransactionsByPriceAndNonce pending baseFee headerTip anzeonEnabled stateDB) := by
  have hnodup :
      ((entries pending baseFee headerTip (isAuthorizedMap pending anzeonEnabled stateDB)).map (·.1.src)).Nodup :=
    srcs_entries.nodup hkeys
  have hperm := Heap.init_perm (less anzeonEnabled (isAuthorizedMap pending anzeonEnabled stateDB))
    ((entries pending baseFee headerTip (isAuthorizedMap pending anzeonEnabled stateDB)).map (·.1))
  have hv : (newTransactionsByPriceAndNonce pending baseFee headerTip anzeonEnabled stateDB).Valid := by
    refine ⟨Heap.isHeap_init (weakOrder_less _ _) _,(hperm.map _).nodup_iff.mpr ?_⟩
    rwa [map_map]
  have hmem (h : TxWithMinerFee) : h ∈ (newTransactionsByPriceAndNonce pending baseFee headerTip anzeonEnabled
      stateDB).heads ↔
        ∃ x ∈ entries pending baseFee headerTip (isAuthorizedMap pending anzeonEnabled stateDB), x.1=h := by
    rw [← mem_map]
    exact hperm.mem_iff
  refine ⟨hv,rfl,?_,?_,.nil⟩
  · intro h hh
    obtain ⟨x,hx,rfl⟩ := (hmem h).mp hh
    obtain ⟨p,hp,hwrap,-⟩ := mem_entries.mp hx
    obtain ⟨hsrc,htx,-⟩ := src_of_wrap hwrap
    refine ⟨⟨p,hp,hsrc.symm⟩,?_⟩
    rw [htx,hsrc]
    exact hwrap
  · intro p hp
    refine ⟨_,rfl,?_⟩
    change _ = p.txs.takeWhile (payable baseFee)
    rw [p.takeWhile_txs]
    rcases newTxWithMinerFee_cases (p.txs.head p.nonempty) p.account baseFee headerTip
      (isAuthorizedMap pending anzeonEnabled stateDB p.account) with ⟨hpays,fees,hwrap⟩ | ⟨hpays,hwrap⟩
    · have hx : (⟨_,p.account,fees⟩,p.txs.tail) ∈ entries pending baseFee headerTip
          (isAuthorizedMap pending anzeonEnabled stateDB) := mem_entries.mpr ⟨p,hp,hwrap,rfl⟩
      have htxs : (newTransactionsByPriceAndNonce pending baseFee headerTip anzeonEnabled stateDB).txs p.account =
          p.txs.tail := by
        have hfind := find?_key (fun x : TxWithMinerFee × List LazyTransaction => x.1.src) hnodup hx
        simp only [newTransactionsByPriceAndNonce,hfind]
        rfl
      have hqueue := queue_of_mem hv.nodup ((hmem _).mpr ⟨_,hx,rfl⟩)
      rw [htxs] at hqueue
      rw [hqueue,if_pos hpays]
      rfl
    · rw [queue_eq_nil,if_neg (by simp [hpays])]
      intro h hh heq
      obtain ⟨x,hx,rfl⟩ := (hmem h).mp hh
      obtain ⟨p',hp',hwrap',-⟩ := mem_entries.mp hx
      obtain rfl : p'=p := inj_on_of_nodup_map hkeys hp' hp ((src_of_wrap hwrap').1.symm.trans heq)
      cases hwrap.symm.trans hwrap'

lemma Run.selects (hkeys : (pending.map (·.account)).Nodup)
    (hrun : Run (newTransactionsByPriceAndNonce pending baseFee headerTip anzeonEnabled stateDB) trace t) :
    Selects (newTransactionsByPriceAndNonce pending baseFee headerTip anzeonEnabled stateDB) pending trace t := by
  induction hrun with
  | refl => exact selects_new hkeys
  | call _ hhead hstep ih => exact ih.step hhead hstep

end Start

/-- The order in which a head should be taken: those of authorized accounts first, by fee and then by arrival; without
such a head, by arrival alone. -/
structure Best (auth : Address → Bool) (heads : List TxWithMinerFee) (h : TxWithMinerFee) : Prop where
  mem : h ∈ heads
  authorized : ∀ h' ∈ heads, auth h'.src=true → auth h.src=true ∧
    (h'.fees<h.fees ∨ h'.fees=h.fees ∧ h.tx.time ≤ h'.tx.time)
  others : (∀ h' ∈ heads, auth h'.src=false) → ∀ h' ∈ heads, h.tx.time ≤ h'.tx.time

lemma best_of_least {auth : Address → Bool} {heads : List TxWithMinerFee} (hmem : h ∈ heads)
    (hleast : ∀ h' ∈ heads, less true auth h' h=false) : Best auth heads h := by
  simp only [← Bool.not_eq_true,less_iff] at hleast
  refine ⟨hmem,?_,?_⟩
  · intro h' hh' hauth'
    have hle := hleast h' hh'
    cases hauth : auth h.src with
    | false => simp [hauth,hauth'] at hle
    | true =>
      simp [hauth,hauth'] at hle ⊢
      omega
  · intro hnone h' hh'
    simpa [hnone h hmem,hnone h' hh'] using hleast h' hh'

/-- The selection under the Anzeon rules, after any calls. The next transaction is that of the best head, where heads
are the next payable transactions of the accounts that were not popped. What was taken of an account, the next
transaction included, is the beginning of its list, ends before the first transaction that cannot pay, and ends with a
pop of the account. -/
theorem selection_in_order {pending : List Pending} {baseFee headerTip : Option ℕ} {stateDB : Option Evm.StateDB}
    (hkeys : (pending.map (·.account)).Nodup) {trace : List (TxWithMinerFee × Call)} {t : TransactionsByPriceAndNonce}
    (hrun : Run (newTransactionsByPriceAndNonce pending baseFee headerTip true stateDB) trace t) :
    (∀ tx fees, t.peek = some (tx,fees) → ∃ h, h.tx=tx ∧ h.fees=fees ∧
      Best (fun a => stateDB.any (·.isAuthorized a)) t.heads h) ∧
    (∀ h ∈ t.heads, newTxWithMinerFee h.tx h.src baseFee headerTip (stateDB.any (·.isAuthorized h.src)) = .ok h) ∧
    (∀ p ∈ pending, ∃ rest, p.txs.takeWhile (payable baseFee) = taken p.account trace++rest ∧
      ∀ tx, (∃ h ∈ t.heads, h.src=p.account ∧ h.tx=tx) ↔ popped p.account trace=false ∧ rest.head? = some tx) ∧
    trace.Pairwise fun x y => x.2 = .pop → y.1.src≠x.1.src := by
  have hs := hrun.selects hkeys
  have hauth (h : TxWithMinerFee) (hh : h ∈ t.heads) :
      isAuthorizedMap pending true stateDB h.src = stateDB.any (·.isAuthorized h.src) := by
    obtain ⟨⟨p,hp,hsrc⟩,-⟩ := hs.heads h hh
    have hany : pending.any (·.account = h.src)=true := List.any_eq_true.mpr ⟨p,hp,by simpa using hsrc⟩
    simp [isAuthorizedMap,hany]
  refine ⟨?_,?_,?_,hs.quiet⟩
  · intro tx fees hpeek
    obtain ⟨h,hhead,heq⟩ := Option.map_eq_some_iff.mp hpeek
    obtain ⟨rest,hheads⟩ := List.head?_eq_some_iff.mp hhead
    have hmem : h ∈ t.heads := by simp [hheads]
    have hheap := hs.valid.heap
    rw [hs.rules.order,hheads] at hheap
    refine ⟨h,congrArg Prod.fst heq,congrArg Prod.snd heq,best_of_least hmem fun h' hh' => ?_⟩
    have hleast : less true (isAuthorizedMap pending true stateDB) h' h=false :=
      hheap.head (weakOrder_less _ _) h' (hheads ▸ hh')
    simpa only [less,hauth h hmem,hauth h' hh'] using hleast
  · intro h hh
    rw [← hauth h hh]
    exact (hs.heads h hh).2
  · intro p hp
    obtain ⟨rest,hlist,hqueue⟩ := hs.lists p hp
    refine ⟨rest,hlist,fun tx => ⟨?_,?_⟩⟩
    · rintro ⟨h,hh,hsrc,rfl⟩
      rw [← hsrc,queue_of_mem hs.valid.nodup hh] at hqueue
      cases hpop : popped h.src trace with
      | false =>
        rw [hpop,if_neg Bool.false_ne_true] at hqueue
        exact ⟨hsrc ▸ hpop,by rw [← hqueue]; rfl⟩
      | true => simp [hpop] at hqueue
    · rintro ⟨hpop,hrest⟩
      rw [hpop,if_neg Bool.false_ne_true] at hqueue
      by_cases hex : ∃ h ∈ t.heads, h.src=p.account
      · obtain ⟨h,hh,hsrc⟩ := hex
        rw [← hqueue,← hsrc,queue_of_mem hs.valid.nodup hh] at hrest
        exact ⟨h,hh,hsrc,Option.some.inj hrest⟩
      · rw [queue_eq_nil fun h hh hsrc => hex ⟨h,hh,hsrc⟩] at hqueue
        simp [← hqueue] at hrest

/-- Two accounts, of which the second arrived first. -/
def offered : List Pending :=
  [⟨7,[⟨1,10,20,6⟩,⟨2,11,3,6⟩],by simp⟩,⟨8,[⟨3,5,30,1⟩,⟨4,6,30,1⟩],by simp⟩]

/-- The first account is authorized. -/
def favoured : Evm.StateDB := blank.setAuthorized 7

theorem selection_in_order_offered : ∃ t,
    Run (newTransactionsByPriceAndNonce offered (some 8) (some 5) true (some favoured)) [(⟨⟨1,10,20,6⟩,7,6⟩,.shift)] t ∧
      t.peek = some (⟨3,5,30,1⟩,1) ∧ ∃ h, h.tx = ⟨3,5,30,1⟩ ∧ h.fees=1 ∧
        Best (fun a => (some favoured).any (·.isAuthorized a)) t.heads h := by
  have hstep : ((newTransactionsByPriceAndNonce offered (some 8) (some 5) true (some favoured)).step .shift).map
      (·.peek) = some (some (⟨3,5,30,1⟩,1)) := by
    decide +kernel
  obtain ⟨t,hstep,hpeek⟩ := Option.map_eq_some_iff.mp hstep
  have hrun := Run.call .refl (h := ⟨⟨1,10,20,6⟩,7,6⟩) (by decide +kernel) hstep
  have hkeys : (offered.map (·.account)).Nodup := by decide
  exact ⟨t,hrun,hpeek,(selection_in_order hkeys hrun).1 _ _ hpeek⟩

/-- While there is a head neither call panics, and when there is none every account that was not popped has given
all its transactions up to the first one that cannot pay. -/
theorem selection_complete {pending : List Pending} {baseFee headerTip : Option ℕ} {anzeonEnabled : Bool}
    {stateDB : Option Evm.StateDB} (hkeys : (pending.map (·.account)).Nodup) {trace : List (TxWithMinerFee × Call)}
    {t : TransactionsByPriceAndNonce}
    (hrun : Run (newTransactionsByPriceAndNonce pending baseFee headerTip anzeonEnabled stateDB) trace t) :
    (t.heads ≠ [] → ∀ c, (t.step c).isSome) ∧ (t.heads = [] → ∀ p ∈ pending, popped p.account trace=false →
      taken p.account trace = p.txs.takeWhile (payable baseFee)) := by
  have hs := hrun.selects hkeys
  refine ⟨fun hne c => ?_,fun hnil p hp hpop => ?_⟩
  · obtain ⟨h,rest,hheads⟩ := List.exists_cons_of_ne_nil hne
    obtain ⟨t',hstep,-⟩ := hs.valid.step hheads c
    exact Option.isSome_iff_exists.mpr ⟨t',hstep⟩
  · obtain ⟨rest,hlist,hqueue⟩ := hs.lists p hp
    rw [queue_eq_nil (by simp [hnil]),hpop,if_neg Bool.false_ne_true] at hqueue
    rw [← hqueue,append_nil] at hlist
    exact hlist.symm

/-- All calls on what is offered: the account that arrived first comes last, and the transaction that cannot pay is
not taken. -/
def offeredCalls : List (TxWithMinerFee × Call) :=
  [(⟨⟨1,10,20,6⟩,7,6⟩,.shift),(⟨⟨3,5,30,1⟩,8,1⟩,.shift),(⟨⟨4,6,30,1⟩,8,1⟩,.shift)]

theorem selection_complete_offered : ∃ t t',
    Run (newTransactionsByPriceAndNonce offered (some 8) (some 5) true (some favoured)) (offeredCalls.take 1) t ∧
      (t.step .pop).isSome ∧
    Run (newTransactionsByPriceAndNonce offered (some 8) (some 5) true (some favoured)) offeredCalls t' ∧
      ∀ p ∈ offered, taken p.account offeredCalls = p.txs.takeWhile (payable (some 8)) := by
  have hkeys : (offered.map (·.account)).Nodup := by decide
  have hend : ((newTransactionsByPriceAndNonce offered (some 8) (some 5) true (some favoured)).step .shift).any
      fun t₁ => t₁.heads.head? = some ⟨⟨3,5,30,1⟩,8,1⟩ && (t₁.step .shift).any
      fun t₂ => t₂.heads.head? = some ⟨⟨4,6,30,1⟩,8,1⟩ && (t₂.step .shift).any (·.heads = []) := by
    decide +kernel
  simp only [Option.any_eq_true,Bool.and_eq_true,decide_eq_true_eq] at hend
  obtain ⟨t₁,h₁,hhead₁,t₂,h₂,hhead₂,t₃,h₃,hnil⟩ := hend
  have hrun₁ := Run.call .refl (h := ⟨⟨1,10,20,6⟩,7,6⟩) (by decide +kernel) h₁
  have hrun₃ := (hrun₁.call hhead₁ h₂).call hhead₂ h₃
  refine ⟨t₁,t₃,hrun₁,(selection_complete hkeys hrun₁).1 ?_ .pop,hrun₃,fun p hp => ?_⟩
  · intro hnone
    simp [hnone] at hhead₁
  · refine (selection_complete hkeys hrun₃).2 hnil p hp ?_
    simp [popped]

end TransactionsByPriceAndNonce

end StableNet.Miner
