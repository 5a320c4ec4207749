import StableNet.Lib.MapTotal
import StableNet.Pool.Transaction

/-! The transactions of one account, sorted by nonce, and what they can cost its sender and the payers of their gas.
-/
namespace StableNet.Pool
open Chain (Address)
open Lib List
open Function
variable {a tx : Tx} {nonce : ℕ}

/-- Where the code panics. A sum that leaves its 256 bits is no panic of the code; it ends the run here, as sums are
assumed to fit. -/
inductive Panic where
  | feeDelegatedUnderflow
  | totalcostUnderflow
  | pendingGasNoEntry
  | pendingGasUnderflow
  | indexOutOfRange
  | nilList
  | overflow
  deriving DecidableEq

/-- The panics that are not about the counters: a sum that does not fit, and a list that is missing or empty where the
pool has looked at it before. The counters do not tell that it is still there. -/
def Panic.Other (e : Panic) : Prop := e = .overflow ∨ e = .nilList ∨ e = .indexOutOfRange

/-- A map from nonces to transactions, as the list that its index sorts. -/
structure SortedMap where
  items : List Tx
  sorted : items.Pairwise (·.nonce<·.nonce)

namespace SortedMap
variable (m : SortedMap)

def empty : SortedMap := ⟨[],.nil⟩

def get (nonce : ℕ) : Option Tx := m.items.find? (·.nonce = nonce)

def part (items : List Tx) (h : items.Sublist m.items) : SortedMap := ⟨items,m.sorted.sublist h⟩

lemma sorted_put (tx : Tx) : (m.items.filter (·.nonce<tx.nonce) ++
    tx::m.items.filter (tx.nonce<·.nonce)).Pairwise (·.nonce<·.nonce) := by
  rw [pairwise_append,pairwise_cons]
  refine ⟨m.sorted.filter _,⟨?_,m.sorted.filter _⟩,?_⟩
  · intro b hb
    simpa using (mem_filter.mp hb).2
  · intro a ha b hb
    have hlt : a.nonce<tx.nonce := by simpa using (mem_filter.mp ha).2
    obtain rfl | hb := mem_cons.mp hb
    · exact hlt
    · have hgt : tx.nonce<b.nonce := by simpa using (mem_filter.mp hb).2
      omega

/-- Insert a transaction in place of one with the same nonce. -/
def put (tx : Tx) : SortedMap :=
  ⟨m.items.filter (·.nonce<tx.nonce)++tx::m.items.filter (tx.nonce<·.nonce),m.sorted_put tx⟩

def filter (f : Tx → Bool) : List Tx × SortedMap :=
  (m.items.filter f,m.part (m.items.filter fun tx => !f tx) filter_sublist)

def forward (threshold : ℕ) : List Tx × SortedMap := m.filter (·.nonce<threshold)

/-- The transactions with the highest nonces are dropped. -/
def cap (threshold : ℕ) : List Tx × SortedMap :=
  if m.items.length ≤ threshold then ([],m)
  else ((m.items.drop threshold).reverse,m.part (m.items.take threshold) (take_sublist _ _))

def remove (nonce : ℕ) : Bool × SortedMap :=
  ((m.get nonce).isSome,m.part (m.items.filter (·.nonce ≠ nonce)) filter_sublist)

/-- The transactions at the front whose nonces follow each other. -/
def consecutive : ℕ → List Tx → List Tx
  | _, [] => []
  | next, tx::items => if tx.nonce=next then tx::consecutive (next+1) items else []

/-- Nonces below the start are returned as well. -/
def ready (start : ℕ) : List Tx × SortedMap :=
  match m.items.head? with
  | none => ([],m)
  | some first =>
    if start<first.nonce then ([],m)
    else
      let ready := consecutive first.nonce m.items
      (ready,m.part (m.items.drop ready.length) (drop_sublist _ _))

def len : ℕ := m.items.length

def flatten : List Tx := m.items

def lastElement : Except Panic Tx :=
  match m.items.getLast? with
  | none => .error .indexOutOfRange
  | some tx => .ok tx

end SortedMap

open SortedMap

/-- The gas that payers owe for the pending fee-delegated transactions of others. -/
abbrev PendingGas := Address → Option ℕ

def PendingGas.add (g : PendingGas) (payer : Address) (feeCost : ℕ) : Except Panic PendingGas :=
  if feeCost=0 then .ok g
  else
    let acc := (g payer).getD 0+feeCost
    if acc<2^256 then .ok (update g payer (some acc)) else .error .overflow

def PendingGas.sub (g : PendingGas) (payer : Address) (feeCost : ℕ) : Except Panic PendingGas :=
  if feeCost=0 then .ok g
  else
    match g payer with
    | none => .error .pendingGasNoEntry
    | some acc =>
      if acc<feeCost then .error .pendingGasUnderflow
      else .ok (update g payer (if acc-feeCost=0 then none else some (acc-feeCost)))

structure TxList where
  strict : Bool
  txs : SortedMap
  costcap : ℕ
  gascap : ℕ
  totalcost : ℕ
  feeDelegated : ℕ
  /-- Whether the list books expenditures, that is, has the two callbacks for the gas. -/
  tracksExpenditure : Bool

def newList (strict : Bool) : TxList := ⟨strict,.empty,0,0,0,0,false⟩

def newPendingList : TxList := { newList true with tracksExpenditure := true }

namespace TxList
variable (l : TxList) (g : PendingGas) (tx : Tx)

def contains (nonce : ℕ) : Bool := (l.txs.get nonce).isSome

def len : ℕ := l.txs.len

def isEmpty : Bool := l.txs.items.isEmpty

def flatten : List Tx := l.txs.flatten

def addTotal (amount : ℕ) : Except Panic TxList :=
  if l.totalcost+amount<2^256 then .ok { l with totalcost := l.totalcost+amount } else .error .overflow

def subTotal (amount : ℕ) : Except Panic TxList :=
  if l.totalcost<amount then .error .totalcostUnderflow else .ok { l with totalcost := l.totalcost-amount }

/-- A fee payer owes the fee, the sender the value. -/
def addCost : Except Panic (TxList × PendingGas) := do
  if !l.tracksExpenditure then return (l,g)
  if tx.feeDelegated then
    let l ← l.addTotal tx.value
    let g ← g.add tx.feePayer tx.feeCost
    return (l,g)
  let l ← l.addTotal tx.cost
  return (l,g)

def subCost : Except Panic (TxList × PendingGas) := do
  if !l.tracksExpenditure then return (l,g)
  if tx.feeDelegated then
    let l ← l.subTotal tx.value
    let g ← g.sub tx.feePayer tx.feeCost
    return (l,g)
  let l ← l.subTotal tx.cost
  return (l,g)

def incFeeDelegated : TxList := if tx.feeDelegated then { l with feeDelegated := l.feeDelegated+1 } else l

def decFeeDelegated : Except Panic TxList :=
  if tx.feeDelegated then
    if l.feeDelegated=0 then .error .feeDelegatedUnderflow else .ok { l with feeDelegated := l.feeDelegated-1 }
  else .ok l

def subCosts (txs : List Tx) : Except Panic (TxList × PendingGas) :=
  txs.foldlM (fun (l,g) tx => do
    let l ← l.decFeeDelegated tx
    l.subCost g tx) (l,g)

/-- Both caps are higher by the bump than those of the transaction to be replaced. -/
def bumped (old : Tx) (priceBump : ℕ) : Bool :=
  old.gasFeeCap<tx.gasFeeCap && old.gasTipCap<tx.gasTipCap &&
    ((100+priceBump)*old.gasFeeCap/100 ≤ tx.gasFeeCap && (100+priceBump)*old.gasTipCap/100 ≤ tx.gasTipCap)

/-- Enter a transaction in the counters and in the map, and raise the caps. -/
def insert : Except Panic (TxList × PendingGas) := do
  let (l,g) ← l.addCost g tx
  let l := { l with txs := l.txs.put tx }
  let l := l.incFeeDelegated tx
  return ({ l with costcap := max l.costcap tx.cost, gascap := max l.gascap tx.gas },g)

/-- Returns whether the transaction was inserted, and the one that it has replaced. -/
def add (priceBump : ℕ) : Except Panic ((Bool × Option Tx) × TxList × PendingGas) :=
  if 2^256 ≤ tx.cost then .ok ((false,none),l,g)
  else
    match l.txs.get tx.nonce with
    | none => do return ((true,none),← l.insert g tx)
    | some old =>
      if bumped tx old priceBump then do
        let (l,g) ← l.subCosts g [old]
        return ((true,some old),← l.insert g tx)
      else .ok ((false,none),l,g)

def forward (threshold : ℕ) : Except Panic (List Tx × TxList × PendingGas) := do
  let (removed,txs) := l.txs.forward threshold
  return (removed,← { l with txs := txs }.subCosts g removed)

/-- The transaction cannot be paid for, or does not fit into a block. -/
def unpayable (feeDelegation : Bool) (state : Evm.StateDB) (costLimit gasLimit : ℕ) (tx : Tx) : Bool :=
  if feeDelegation && tx.feeDelegated then
    gasLimit<tx.gas || costLimit<tx.value || (state.getBalance tx.feePayer).toNat<tx.feeCost
  else gasLimit<tx.gas || costLimit<tx.cost

/-- Returns the transactions that cannot be paid for, and those that come after one of them in a strict list. -/
def filter (feeDelegation : Bool) (state : Evm.StateDB) (costLimit gasLimit : ℕ) :
    Except Panic ((List Tx × List Tx) × TxList × PendingGas) :=
  if l.feeDelegated=0 && (l.costcap ≤ costLimit && l.gascap ≤ gasLimit) then .ok (([],[]),l,g)
  else
    let l := { l with costcap := costLimit, gascap := gasLimit }
    let (removed,txs) := l.txs.filter (unpayable feeDelegation state costLimit gasLimit)
    if removed.isEmpty then .ok (([],[]),l,g)
    else do
      let lowest := (removed.map Tx.nonce).foldl min (2^64-1)
      let (invalids,txs) := if l.strict then txs.filter (lowest<·.nonce) else ([],txs)
      let (l,g) ← { l with txs := txs }.subCosts g removed
      return ((removed,invalids),← l.subCosts g invalids)

def cap (threshold : ℕ) : Except Panic (List Tx × TxList × PendingGas) := do
  let (removed,txs) := l.txs.cap threshold
  return (removed,← { l with txs := txs }.subCosts g removed)

/-- What is removed has the nonce of the transaction; what is subtracted is the transaction. -/
def remove : Except Panic ((Bool × List Tx) × TxList × PendingGas) :=
  let (found,txs) := l.txs.remove tx.nonce
  if !found then .ok ((false,[]),l,g)
  else do
    let (l,g) ← { l with txs := txs }.subCosts g [tx]
    if l.strict then
      let (invalids,txs) := l.txs.filter (tx.nonce<·.nonce)
      return ((true,invalids),← { l with txs := txs }.subCosts g invalids)
    else return ((true,[]),l,g)

def ready (start : ℕ) : Except Panic (List Tx × TxList × PendingGas) := do
  let (ready,txs) := l.txs.ready start
  return (ready,← { l with txs := txs }.subCosts g ready)

end TxList

namespace SortedMap
variable {m m' : SortedMap} {removed : List Tx}

lemma nodup_nonces (m : SortedMap) : (m.items.map Tx.nonce).Nodup := pairwise_map.mpr (m.sorted.imp fun h => h.ne)

lemma nonce_inj {b : Tx} (ha : a ∈ m.items) (hb : b ∈ m.items) (h : a.nonce=b.nonce) : a=b :=
  inj_on_of_nodup_map m.nodup_nonces ha hb h

lemma get_eq_some : m.get nonce = some tx ↔ tx ∈ m.items ∧ tx.nonce=nonce := by
  constructor
  · intro h
    exact ⟨mem_of_find?_eq_some h,by simpa using List.find?_some h⟩
  · rintro ⟨hmem,rfl⟩
    cases hget : m.get tx.nonce with
    | none => simpa using List.find?_eq_none.mp hget tx hmem
    | some other =>
      have hother : other.nonce=tx.nonce := by simpa using List.find?_some hget
      rw [nonce_inj (mem_of_find?_eq_some hget) hmem hother]

lemma get_eq_none : m.get nonce=none ↔ ∀ tx ∈ m.items, tx.nonce≠nonce := by
  simp [get]

/-- The items are those that were removed and those that are left. -/
def Splits (m : SortedMap) (removed : List Tx) (m' : SortedMap) : Prop := (removed++m'.items).Perm m.items

lemma Splits.mem_items (h : m.Splits removed m') : tx ∈ m.items ↔ tx ∈ removed ∨ tx ∈ m'.items := by
  rw [← mem_append]
  exact (List.Perm.mem_iff h).symm

lemma splits_nil (m : SortedMap) : m.Splits [] m := .refl _

lemma splits_filter (m : SortedMap) (f : Tx → Bool) : m.Splits (m.filter f).1 (m.filter f).2 :=
  filter_append_perm f m.items

lemma splits_forward (m : SortedMap) (threshold : ℕ) : m.Splits (m.forward threshold).1 (m.forward threshold).2 :=
  m.splits_filter _

lemma splits_cap (m : SortedMap) (threshold : ℕ) : m.Splits (m.cap threshold).1 (m.cap threshold).2 := by
  unfold cap
  split
  · exact m.splits_nil
  · have hperm := (reverse_perm (m.items.drop threshold)).append_right (m.items.take threshold)
    refine hperm.trans (perm_append_comm.trans ?_)
    rw [take_append_drop]

lemma consecutive_isPrefix (next : ℕ) (items : List Tx) : consecutive next items <+: items := by
  induction items generalizing next with
  | nil => exact nil_prefix
  | cons tx items ih =>
    rw [consecutive]
    split
    · exact prefix_cons_inj tx |>.mpr (ih _)
    · exact nil_prefix

lemma splits_ready (m : SortedMap) (start : ℕ) : m.Splits (m.ready start).1 (m.ready start).2 := by
  unfold ready
  split
  · exact m.splits_nil
  · split
    · exact m.splits_nil
    · exact .of_eq (prefix_iff_eq_append.mp (consecutive_isPrefix _ m.items))

lemma splits_remove (h : tx ∈ m.items) : m.Splits [tx] (m.remove tx.nonce).2 := by
  have hnodup : m.items.Nodup := .of_map _ m.nodup_nonces
  have hsingle : [tx].Perm (m.items.filter (·.nonce = tx.nonce)) := by
    refine (perm_ext_iff_of_nodup (nodup_singleton tx) (hnodup.filter _)).mpr fun a => ?_
    rw [mem_singleton,mem_filter,decide_eq_true_eq]
    constructor
    · rintro rfl
      exact ⟨h,rfl⟩
    · rintro ⟨ha,hnonce⟩
      exact nonce_inj ha h hnonce
  refine (hsingle.append_right _).trans ?_
  simpa [remove,part] using filter_append_perm (fun a => decide (a.nonce=tx.nonce)) m.items

lemma mem_put : a ∈ (m.put tx).items ↔ a=tx ∨ a ∈ m.items ∧ a.nonce≠tx.nonce := by
  simp only [put,mem_append,mem_cons,mem_filter,decide_eq_true_eq]
  have hne : a.nonce≠tx.nonce ↔ a.nonce<tx.nonce ∨ tx.nonce<a.nonce := by omega
  rw [hne]
  tauto

lemma perm_put (m : SortedMap) (tx : Tx) : (m.put tx).items.Perm (tx::(m.remove tx.nonce).2.items) := by
  have hnodup (m : SortedMap) : m.items.Nodup := .of_map _ m.nodup_nonces
  have hnotMem : tx ∉ (m.remove tx.nonce).2.items := by simp [remove,part]
  refine (perm_ext_iff_of_nodup (hnodup _) (nodup_cons.mpr ⟨hnotMem,hnodup _⟩)).mpr fun a => ?_
  rw [mem_put,mem_cons]
  simp [remove,part]

lemma perm_put_of_get_eq_none (h : m.get tx.nonce=none) : (m.put tx).items.Perm (tx::m.items) := by
  have hall : (m.remove tx.nonce).2.items = m.items := by
    simpa [remove,part] using get_eq_none.mp h
  rw [← hall]
  exact m.perm_put tx

end SortedMap

/-- The entry of a map that has none for zero. -/
def entry (n : ℕ) : Option ℕ := if n=0 then none else some n

lemma getD_entry (n : ℕ) : (entry n).getD 0 = n := by
  unfold entry
  split
  · exact Eq.symm ‹_›
  · rfl

namespace PendingGas
variable {g : PendingGas} {payer : Address} {n c : ℕ}

lemma add_entry (hg : g payer = entry n) : Post Panic.Other (· = update g payer (entry (n+c))) (g.add payer c) := by
  unfold add
  split
  · rename_i hc
    refine .ok ?_
    rw [hc,Nat.add_zero,← hg,update_eq_self]
  · rename_i hc
    dsimp only
    rw [hg,getD_entry]
    split
    · refine .ok ?_
      rw [entry,if_neg (by omega)]
    · exact .error (.inl rfl)

lemma sub_entry (hg : g payer = entry (n+c)) : g.sub payer c = .ok (update g payer (entry n)) := by
  unfold sub
  split
  · rename_i hc
    rw [hc,Nat.add_zero] at hg
    rw [← hg,update_eq_self]
  · rename_i hc
    rw [hg,entry,if_neg (by omega)]
    dsimp only
    rw [if_neg (by omega),Nat.add_sub_cancel,entry]

end PendingGas

namespace TxList
variable {l l' : TxList} {g g' : PendingGas} {txs removed : List Tx} {rest : Address → ℕ}

/-- What the list books to a payer for some transactions. -/
def booked (l : TxList) (txs : List Tx) (payer : Address) : ℕ :=
  if l.tracksExpenditure then (txs.map (·.feeFor payer)).sum else 0

/-- The counters are right for these transactions, when others book the rest of the gas. -/
structure Balanced (l : TxList) (g : PendingGas) (txs : List Tx) (rest : Address → ℕ) : Prop where
  count : l.feeDelegated = txs.countP (·.feeDelegated)
  total : l.tracksExpenditure=true → l.totalcost = (txs.map Tx.senderCost).sum
  gas : ∀ payer, g payer = entry (rest payer+l.booked txs payer)

lemma Balanced.perm {txs' : List Tx} (h : l.Balanced g txs rest) (hperm : txs.Perm txs') : l.Balanced g txs' rest where
  count := h.count.trans (hperm.countP_eq _)
  total ht := (h.total ht).trans (hperm.map _).sum_eq
  gas payer := by
    rw [h.gas,booked,booked,(hperm.map _).sum_eq]

lemma Balanced.congr (h : l.Balanced g txs rest) (hcount : l'.feeDelegated=l.feeDelegated)
    (htotal : l'.totalcost=l.totalcost) (htracks : l'.tracksExpenditure=l.tracksExpenditure) :
    l'.Balanced g txs rest where
  count := hcount.trans h.count
  total ht := htotal.trans (h.total (htracks ▸ ht))
  gas payer := by
    rw [h.gas,booked,booked,htracks]

def counting (l : TxList) (total count : ℕ) : TxList := { l with totalcost := total, feeDelegated := count }

lemma feeFor_of_not_feeDelegated (h : tx.feeDelegated=false) (payer : Address) : tx.feeFor payer=0 := by
  simp [Tx.feeFor,h]

lemma feeFor_feePayer (h : tx.feeDelegated=true) : tx.feeFor tx.feePayer=tx.feeCost := by
  simp [Tx.feeFor,h]

lemma feeFor_of_ne {payer : Address} (h : payer≠tx.feePayer) : tx.feeFor payer=0 := by
  simp [Tx.feeFor,h.symm]

lemma decFeeDelegated_eq (h : l.feeDelegated = (tx::txs).countP (·.feeDelegated)) :
    l.decFeeDelegated tx = .ok { l with feeDelegated := txs.countP (·.feeDelegated) } := by
  unfold decFeeDelegated
  cases hd : tx.feeDelegated with
  | true =>
    rw [countP_cons_of_pos hd] at h
    simp [h]
  | false =>
    rw [countP_cons_of_neg (by simp [hd])] at h
    simp [← h]

lemma Balanced.subOne (h : l.Balanced g (tx::txs) rest) : ∃ total count g',
    (do let l ← l.decFeeDelegated tx; l.subCost g tx) = .ok (l.counting total count,g') ∧
      (l.counting total count).Balanced g' txs rest := by
  rw [decFeeDelegated_eq h.count]
  have hgas := h.gas
  cases ht : l.tracksExpenditure with
  | false =>
    refine ⟨l.totalcost,txs.countP (·.feeDelegated),g,?_,rfl,by simp [counting,ht],?_⟩
    · simp [bind,Except.bind,subCost,ht,pure,Except.pure,counting]
    · simpa [booked,counting,ht] using hgas
  | true =>
    have htotal := h.total ht
    simp only [booked,ht,if_true,map_cons,sum_cons] at hgas htotal
    cases hd : tx.feeDelegated with
    | true =>
      have hsender : tx.senderCost=tx.value := by simp [Tx.senderCost,hd]
      have hpayer := hgas tx.feePayer
      rw [feeFor_feePayer hd,Nat.add_comm tx.feeCost,← Nat.add_assoc] at hpayer
      refine ⟨(txs.map Tx.senderCost).sum,txs.countP (·.feeDelegated),update g tx.feePayer
        (entry (rest tx.feePayer+(txs.map (·.feeFor tx.feePayer)).sum)),?_,rfl,fun _ => rfl,fun payer => ?_⟩
      · have hle : ¬l.totalcost<tx.value := by omega
        have hsub : l.totalcost-tx.value = (txs.map Tx.senderCost).sum := by omega
        simp [bind,Except.bind,subCost,subTotal,ht,hd,hle,hsub,PendingGas.sub_entry hpayer,pure,Except.pure,counting]
      · by_cases hp : payer=tx.feePayer
        · subst hp
          simp [booked,counting,ht]
        · rw [update_of_ne hp,hgas,feeFor_of_ne hp,Nat.zero_add]
          simp [booked,counting,ht]
    | false =>
      have hsender : tx.senderCost=tx.cost := by simp [Tx.senderCost,hd]
      refine ⟨(txs.map Tx.senderCost).sum,txs.countP (·.feeDelegated),g,?_,rfl,fun _ => rfl,fun payer => ?_⟩
      · have hle : ¬l.totalcost<tx.cost := by omega
        have hsub : l.totalcost-tx.cost = (txs.map Tx.senderCost).sum := by omega
        simp [bind,Except.bind,subCost,subTotal,ht,hd,hle,hsub,pure,Except.pure,counting]
      · rw [hgas,feeFor_of_not_feeDelegated hd,Nat.zero_add]
        simp [booked,counting,ht]

lemma Balanced.subCosts (h : l.Balanced g (removed++txs) rest) : ∃ total count g',
    l.subCosts g removed = .ok (l.counting total count,g') ∧ (l.counting total count).Balanced g' txs rest := by
  induction removed generalizing l g with
  | nil => exact ⟨l.totalcost,l.feeDelegated,g,rfl,h⟩
  | cons tx removed ih =>
    obtain ⟨total,count,g₁,hone,h₁⟩ := h.subOne
    obtain ⟨total',count',g₂,hrest,h₂⟩ := ih h₁
    refine ⟨total',count',g₂,?_,h₂⟩
    rw [TxList.subCosts,foldlM_cons]
    dsimp only
    rw [hone]
    exact hrest

@[simp]
lemma tracksExpenditure_incFeeDelegated (l : TxList) (tx : Tx) :
    (l.incFeeDelegated tx).tracksExpenditure = l.tracksExpenditure := by
  unfold incFeeDelegated
  split <;> rfl

@[simp]
lemma strict_incFeeDelegated (l : TxList) (tx : Tx) : (l.incFeeDelegated tx).strict = l.strict := by
  unfold incFeeDelegated
  split <;> rfl

@[simp]
lemma totalcost_incFeeDelegated (l : TxList) (tx : Tx) : (l.incFeeDelegated tx).totalcost = l.totalcost := by
  unfold incFeeDelegated
  split <;> rfl

lemma feeDelegated_incFeeDelegated (h : l.feeDelegated = txs.countP (·.feeDelegated)) :
    (l.incFeeDelegated tx).feeDelegated = (tx::txs).countP (·.feeDelegated) := by
  unfold incFeeDelegated
  split
  · rename_i hd
    rw [countP_cons_of_pos hd,← h]
  · rename_i hd
    rw [countP_cons_of_neg hd,← h]

lemma post_addTotal (l : TxList) (amount : ℕ) :
    Post Panic.Other (· = l.counting (l.totalcost+amount) l.feeDelegated) (l.addTotal amount) := by
  unfold addTotal
  split
  · exact .ok rfl
  · exact .error (.inl rfl)

theorem Balanced.addCost (h : l.Balanced g txs rest) : Post Panic.Other
    (fun r => ∃ total, r.1 = l.counting total l.feeDelegated ∧
      (r.1.incFeeDelegated tx).Balanced r.2 (tx::txs) rest) (l.addCost g tx) := by
  have hcount (total : ℕ) := @feeDelegated_incFeeDelegated tx (l.counting total l.feeDelegated) txs h.count
  unfold TxList.addCost
  cases ht : l.tracksExpenditure with
  | false =>
    refine .ok ⟨l.totalcost,rfl,hcount l.totalcost,by simp [ht],fun payer => ?_⟩
    dsimp only
    rw [h.gas,booked,booked]
    simp [ht]
  | true =>
    have hsum := h.total ht
    have hgas (payer : Address) : g payer = entry (rest payer+(txs.map (·.feeFor payer)).sum) := by
      rw [h.gas,booked,ht,if_pos rfl]
    have hbooked (total : ℕ) (payer : Address) :
        ((l.counting total l.feeDelegated).incFeeDelegated tx).booked (tx::txs) payer =
          (txs.map (·.feeFor payer)).sum+tx.feeFor payer := by
      rw [booked,tracksExpenditure_incFeeDelegated,counting,if_pos ht,map_cons,sum_cons,Nat.add_comm]
    cases hd : tx.feeDelegated with
    | true =>
      refine (l.post_addTotal tx.value).bind fun l₁ hl₁ => ?_
      subst hl₁
      refine (PendingGas.add_entry (hgas tx.feePayer)).bind fun g₁ hg₁ => ?_
      subst hg₁
      refine .ok ⟨_,rfl,hcount _,fun _ => ?_,fun payer => ?_⟩
      · rw [totalcost_incFeeDelegated,counting,hsum,map_cons,sum_cons,Tx.senderCost,if_pos hd,Nat.add_comm]
      · dsimp only
        rw [hbooked]
        by_cases hp : payer=tx.feePayer
        · rw [hp,update_self,feeFor_feePayer hd,Nat.add_assoc]
        · rw [update_of_ne hp,hgas,feeFor_of_ne hp,Nat.add_zero]
    | false =>
      refine (l.post_addTotal tx.cost).bind fun l₁ hl₁ => ?_
      subst hl₁
      refine .ok ⟨_,rfl,hcount _,fun _ => ?_,fun payer => ?_⟩
      · rw [totalcost_incFeeDelegated,counting,hsum,map_cons,sum_cons,Tx.senderCost,if_neg (by simp [hd]),
          Nat.add_comm]
      · dsimp only
        rw [hbooked,hgas,feeFor_of_not_feeDelegated hd,Nat.add_zero]

/-- The list has lost these transactions, and the counters with it. -/
structure Loses (l : TxList) (removed : List Tx) (l' : TxList) (g : PendingGas) (rest : Address → ℕ) : Prop where
  strict : l'.strict=l.strict
  tracks : l'.tracksExpenditure=l.tracksExpenditure
  splits : l.txs.Splits removed l'.txs
  balanced : l'.Balanced g l'.txs.items rest

lemma Balanced.take (h : l.Balanced g l.txs.items rest) {m : SortedMap} (hm : l.txs.Splits removed m) :
    ∃ l' g', { l with txs := m }.subCosts g removed = .ok (l',g') ∧ l.Loses removed l' g' rest := by
  have hbefore : ({ l with txs := m } : TxList).Balanced g (removed++m.items) rest :=
    (h.perm (List.Perm.symm hm)).congr rfl rfl rfl
  obtain ⟨total,count,g',hsub,hafter⟩ := hbefore.subCosts
  exact ⟨_,g',hsub,rfl,rfl,hm,hafter⟩

lemma Loses.trans {invalids : List Tx} {l₁ : TxList} {g₁ : PendingGas} (h : l.Loses removed l₁ g₁ rest)
    (h' : l₁.Loses invalids l' g' rest) : l.Loses (removed++invalids) l' g' rest where
  strict := h'.strict.trans h.strict
  tracks := h'.tracks.trans h.tracks
  splits := by
    rw [SortedMap.Splits,append_assoc]
    exact (List.Perm.append_left removed h'.splits).trans h.splits
  balanced := h'.balanced

section
variable (h : l.Balanced g l.txs.items rest)
include h

lemma Balanced.forward (threshold : ℕ) :
    Post Panic.Other (fun r => l.Loses r.1 r.2.1 r.2.2 rest) (l.forward g threshold) := by
  obtain ⟨l',g',hsub,hloses⟩ := h.take (l.txs.splits_forward threshold)
  refine .of_eq (a := (_,l',g')) ?_ hloses
  simp [TxList.forward,hsub,bind,Except.bind,pure,Except.pure]

lemma Balanced.ready (start : ℕ) : Post Panic.Other (fun r => l.Loses r.1 r.2.1 r.2.2 rest) (l.ready g start) := by
  obtain ⟨l',g',hsub,hloses⟩ := h.take (l.txs.splits_ready start)
  refine .of_eq (a := (_,l',g')) ?_ hloses
  simp [TxList.ready,hsub,bind,Except.bind,pure,Except.pure]

lemma Balanced.cap (threshold : ℕ) :
    Post Panic.Other (fun r => l.Loses r.1 r.2.1 r.2.2 rest) (l.cap g threshold) := by
  obtain ⟨l',g',hsub,hloses⟩ := h.take (l.txs.splits_cap threshold)
  refine .of_eq (a := (_,l',g')) ?_ hloses
  simp [TxList.cap,hsub,bind,Except.bind,pure,Except.pure]

/-- What is removed can no longer be paid for; what comes after it leaves a strict list as well. -/
theorem Balanced.filter (feeDelegation : Bool) (state : Evm.StateDB) (costLimit gasLimit : ℕ) :
    Post Panic.Other (fun r => l.Loses (r.1.1++r.1.2) r.2.1 r.2.2 rest ∧ (l.strict=false → r.1.2 = []))
      (l.filter g feeDelegation state costLimit gasLimit) := by
  unfold TxList.filter
  split
  · exact .ok ⟨⟨rfl,rfl,l.txs.splits_nil,h⟩,fun _ => rfl⟩
  · dsimp only
    split
    · exact .ok ⟨⟨rfl,rfl,l.txs.splits_nil,h.congr rfl rfl rfl⟩,fun _ => rfl⟩
    · have hcapped : ({ l with costcap := costLimit, gascap := gasLimit } : TxList).Balanced g l.txs.items rest :=
        h.congr rfl rfl rfl
      have hsplits := l.txs.splits_filter (unpayable feeDelegation state costLimit gasLimit)
      generalize l.txs.filter (unpayable feeDelegation state costLimit gasLimit) = r at hsplits ⊢
      obtain ⟨removed,m⟩ := r
      -- the code subtracts both parts when both have left the map
      have hboth {invalids : List Tx} {m' : SortedMap} (hm' : m.Splits invalids m') : ∃ l₁ g₁ l' g',
          { l with txs := m', costcap := costLimit, gascap := gasLimit }.subCosts g removed = .ok (l₁,g₁) ∧
            l₁.subCosts g₁ invalids = .ok (l',g') ∧ l.Loses (removed++invalids) l' g' rest := by
        have hall : l.txs.Splits (removed++invalids) m' := by
          rw [SortedMap.Splits,append_assoc]
          exact (List.Perm.append_left removed hm').trans hsplits
        have hbefore : ({ l with txs := m', costcap := costLimit, gascap := gasLimit } : TxList).Balanced g
            (removed++(invalids++m'.items)) rest := by
          rw [← append_assoc]
          exact (hcapped.perm (List.Perm.symm hall)).congr rfl rfl rfl
        obtain ⟨total,count,g₁,hsub,hmid⟩ := hbefore.subCosts
        obtain ⟨total',count',g',hsub',hafter⟩ := hmid.subCosts
        exact ⟨_,g₁,_,g',hsub,hsub',rfl,rfl,hall,hafter⟩
      dsimp only
      split
      · rename_i hstrict
        obtain ⟨l₁,g₁,l',g',hsub,hsub',hloses⟩ :=
          hboth (m.splits_filter ((removed.map Tx.nonce).foldl min (2^64-1)<·.nonce))
        refine .of_eq (a := ((removed,_),l',g')) ?_ ⟨hloses,fun hs => by simp [hs] at hstrict⟩
        simp only [hsub,hsub',bind,Except.bind,pure,Except.pure]
      · obtain ⟨l₁,g₁,l',g',hsub,hsub',hloses⟩ := hboth m.splits_nil
        refine .of_eq (a := ((removed,[]),l',g')) ?_ ⟨hloses,fun _ => rfl⟩
        simp only [hsub,hsub',bind,Except.bind,pure,Except.pure]

theorem Balanced.remove (hmem : tx ∈ l.txs.items) :
    Post Panic.Other (fun r => l.Loses (tx::r.1.2) r.2.1 r.2.2 rest ∧ (l.strict=false → r.1.2 = []))
      (l.remove g tx) := by
  have hfound : (l.txs.remove tx.nonce).1=true := by
    rw [SortedMap.remove,get_eq_some.mpr ⟨hmem,rfl⟩]
    rfl
  have hsplits := splits_remove hmem
  unfold TxList.remove
  generalize l.txs.remove tx.nonce = r at hsplits hfound ⊢
  obtain ⟨found,m⟩ := r
  subst hfound
  obtain ⟨l₁,g₁,hsub,hloses⟩ := h.take hsplits
  simp only [hsub,bind,Except.bind,pure,Except.pure,Bool.not_true,Bool.false_eq_true,if_false]
  split
  · rename_i hstrict
    obtain ⟨l',g',hsub',hloses'⟩ := hloses.balanced.take (l₁.txs.splits_filter (tx.nonce<·.nonce))
    refine .of_eq (a := ((true,_),l',g')) ?_ ⟨hloses.trans hloses',fun hs => ?_⟩
    · simp only [hsub']
    · rw [hloses.strict,hs] at hstrict
      cases hstrict
  · exact .ok ⟨hloses,fun _ => rfl⟩

end

/-- The list has this transaction now, in the place of another one or as a new one. -/
structure Gains (l : TxList) (tx : Tx) (old : Option Tx) (l' : TxList) : Prop where
  strict : l'.strict=l.strict
  tracks : l'.tracksExpenditure=l.tracksExpenditure
  fits : tx.cost<2^256
  replaced : l.txs.get tx.nonce = old
  items : (old.toList++l'.txs.items).Perm (tx::l.txs.items)
  mem : tx ∈ l'.txs.items

lemma Balanced.insert (h : l.Balanced g txs rest) (hperm : (l.txs.put tx).items.Perm (tx::txs)) :
    Post Panic.Other (fun r => r.1.strict=l.strict ∧ r.1.tracksExpenditure=l.tracksExpenditure ∧
      r.1.txs = l.txs.put tx ∧ r.1.Balanced r.2 r.1.txs.items rest) (l.insert g tx) := by
  refine h.addCost.bind ?_
  rintro ⟨l₁,g₁⟩ ⟨total,rfl,hafter⟩
  have hinc (m : SortedMap) : ({ l.counting total l.feeDelegated with txs := m } : TxList).incFeeDelegated tx =
      { (l.counting total l.feeDelegated).incFeeDelegated tx with txs := m } := by
    unfold incFeeDelegated
    split <;> rfl
  refine .ok ?_
  dsimp only
  rw [hinc]
  exact ⟨strict_incFeeDelegated _ _,tracksExpenditure_incFeeDelegated _ _,rfl,
    (hafter.perm hperm.symm).congr rfl rfl rfl⟩

theorem Balanced.add (h : l.Balanced g l.txs.items rest) (priceBump : ℕ) : Post Panic.Other
    (fun r => r = ((false,none),l,g) ∧ (tx.cost<2^256 → l.contains tx.nonce=true) ∨
      ∃ old l' g', r = ((true,old),l',g') ∧ l.Gains tx old l' ∧ l'.Balanced g' l'.txs.items rest)
    (l.add g tx priceBump) := by
  unfold TxList.add
  split
  · exact .ok (.inl ⟨rfl,by omega⟩)
  · rename_i hfits
    split
    · rename_i hget
      have hperm := perm_put_of_get_eq_none hget
      refine (h.insert hperm).bind ?_
      rintro ⟨l',g'⟩ ⟨hstrict,htracks,htxs,hafter⟩
      refine .ok (.inr ⟨none,l',g',rfl,⟨hstrict,htracks,by omega,hget,?_,?_⟩,hafter⟩)
      · rw [htxs]
        exact hperm
      · rw [htxs]
        exact mem_put.mpr (.inl rfl)
    · rename_i old hget
      split
      · obtain ⟨hmem,hnonce⟩ := get_eq_some.mp hget
        have hsplits := splits_remove hmem
        have hbefore := h.perm (List.Perm.symm hsplits)
        obtain ⟨total,count,g₁,hsub,hmid⟩ := hbefore.subCosts
        have hperm := l.txs.perm_put tx
        rw [← hnonce] at hperm
        rw [hsub]
        refine (hmid.insert hperm).bind ?_
        rintro ⟨l',g'⟩ ⟨hstrict,htracks,htxs,hafter⟩
        refine .ok (.inr ⟨some old,l',g',rfl,⟨hstrict,htracks,by omega,hget,?_,?_⟩,hafter⟩)
        · rw [htxs]
          exact (List.Perm.cons old hperm).trans ((List.Perm.swap tx old _).trans (List.Perm.cons tx hsplits))
        · rw [htxs]
          exact mem_put.mpr (.inl rfl)
      · exact .ok (.inl ⟨rfl,fun _ => by rw [contains,hget]; rfl⟩)

end TxList

end StableNet.Pool
