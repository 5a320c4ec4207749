import Mathlib.Data.List.Sort
import StableNet.Pool.List
import StableNet.Pool.Priced
import StableNet.Pool.Validation

/-! The pool and its operations. The orders in which maps are walked and the answers of the reserver are inputs. -/
namespace StableNet.Pool
open Chain (Address Header)
open Lib

/-- The limits, as `sanitize` leaves them. -/
structure Config where
  noLocals : Bool
  priceBump : ℕ
  accountSlots : ℕ
  globalSlots : ℕ
  accountQueue : ℕ
  globalQueue : ℕ
  accountSlots_pos : 0<accountSlots

inductive PoolError where
  | alreadyKnown
  | validation (e : ValidationError)
  | outOfOrderTxFromDelegated
  | inflightTxLimitReached
  | authorityReserved
  | alreadyReserved
  | underpriced
  | txPoolOverflow
  | futureReplacePending
  | replaceUnderpriced
  deriving DecidableEq

/-- A transaction comes with the tip cap that its object remembers from an earlier validation, if any, and with the
answers of the reserver. -/
structure Arrival where
  tx : Tx
  cap : Option ℕ
  held : Bool
  reserved : Address → Bool

abbrev Lists := AList fun _ : Address => TxList

/-- The pool, with what the validation of each transaction saw. -/
structure LegacyPool where
  gasTip : ℕ
  currentHead : Header
  currentState : Evm.StateDB
  pendingNonces : Address → Option ℕ
  locals : List Address
  pending : Lists
  queue : Lists
  pendingGas : PendingGas
  all : Lookup
  priced : PricedList
  changesSinceReorg : ℕ
  anzeonTipEnv : AnzeonTipEnv
  tipCaps : TipCaps
  admissions : Admissions

/-- The addresses of a map, in a given order as far as it goes. -/
def Lists.inOrder (m : Lists) (order : List Address) : List Address := walk m.keys order

namespace LegacyPool
variable (config : Config) (chain : BlockChain) (s : LegacyPool)

def pricing : Pricing := ⟨chain,s.anzeonTipEnv,s.tipCaps⟩

def stateNonce (addr : Address) : ℕ := (s.currentState.getNonce addr).toNat

/-- The next nonce, pending transactions included. -/
def nonce (addr : Address) : ℕ := (s.pendingNonces addr).getD (s.stateNonce addr)

def setNonce (addr : Address) (nonce : ℕ) : LegacyPool :=
  { s with pendingNonces := Function.update s.pendingNonces addr (some nonce) }

def setIfLower (addr : Address) (nonce : ℕ) : LegacyPool := if s.nonce addr ≤ nonce then s else s.setNonce addr nonce

def removed (count : ℕ) : LegacyPool := { s with priced := s.priced.removed (s.pricing chain) s.all count }

/-- `pool.all.Remove` for each of the transactions. -/
def forget (txs : List Tx) : LegacyPool := { s with all := txs.foldl Lookup.remove s.all }

/-- A replaced transaction is forgotten. -/
def supersede (old : Option Tx) : LegacyPool :=
  match old with
  | none => s
  | some old => (s.forget [old]).removed chain 1

def record (tx : Tx) (isLocal : Bool) : LegacyPool :=
  { s with all := s.all.add tx isLocal, priced := s.priced.put (s.pricing chain) tx isLocal }

/-- Take transactions out of a list, which must be there. -/
def takeFrom {α : Type} (m : Lists) (addr : Address)
    (f : TxList → PendingGas → Except Panic (α × TxList × PendingGas)) : Except Panic (α × Lists × PendingGas) :=
  match m.lookup addr with
  | none => .error .nilList
  | some list => do
    let (taken,list,gas) ← f list s.pendingGas
    return (taken,m.insert addr list,gas)

def takePending {α : Type} (addr : Address) (f : TxList → PendingGas → Except Panic (α × TxList × PendingGas)) :
    Except Panic (α × LegacyPool) := do
  let (taken,pending,pendingGas) ← s.takeFrom s.pending addr f
  return (taken,{ s with pending, pendingGas })

def takeQueued {α : Type} (addr : Address) (f : TxList → PendingGas → Except Panic (α × TxList × PendingGas)) :
    Except Panic (α × LegacyPool) := do
  let (taken,queue,pendingGas) ← s.takeFrom s.queue addr f
  return (taken,{ s with queue, pendingGas })

/-- The account's list is deleted if it is empty. -/
def closed (m : Lists) (addr : Address) : Lists :=
  match m.lookup addr with
  | none => m
  | some list => if list.isEmpty then m.erase addr else m

def closePending (addr : Address) : LegacyPool := { s with pending := closed s.pending addr }

def closeQueue (addr : Address) : LegacyPool := { s with queue := closed s.queue addr }

/-- The nonce is that of one of the account's pending transactions. -/
def isPending (tx : Tx) : Bool := (s.pending.lookup tx.src).any (·.contains tx.nonce)

/-- Returns whether a transaction was replaced, or nothing if an older one was better. -/
def enqueueTx (tx : Tx) (isLocal addAll : Bool) : Except Panic (Option Bool × LegacyPool) := do
  let list := (s.queue.lookup tx.src).getD (newList false)
  let ((inserted,old),list,pendingGas) ← list.add s.pendingGas tx config.priceBump
  let s := { s with queue := s.queue.insert tx.src list, pendingGas }
  if !inserted then return (none,s)
  let s := s.supersede chain old
  return (some old.isSome,if addAll then s.record chain tx isLocal else s)

/-- Transactions go back to the queue; the lookup is not touched. -/
def requeue (txs : List Tx) : Except Panic LegacyPool :=
  txs.foldlM (fun s tx => do return (← s.enqueueTx config chain tx false false).2) s

def promoteTx (tx : Tx) : Except Panic LegacyPool := do
  let list := (s.pending.lookup tx.src).getD newPendingList
  let ((inserted,old),list,pendingGas) ← list.add s.pendingGas tx config.priceBump
  let s := { s with pending := s.pending.insert tx.src list, pendingGas }
  if !inserted then return (s.forget [tx]).removed chain 1
  return (s.supersede chain old).setNonce tx.src ((tx.nonce+1)%2^64)

/-- A forgotten transaction leaves its list. Returns how many left the pending list. -/
def takeOut (tx : Tx) : Except Panic (ℕ × LegacyPool) := do
  if s.isPending tx then
    let ((_,invalids),s) ← s.takePending tx.src (·.remove · tx)
    let s ← (s.closePending tx.src).requeue config chain invalids
    return (1+invalids.length,s.setIfLower tx.src tx.nonce)
  if tx.src ∈ s.queue then
    let (_,s) ← s.takeQueued tx.src (·.remove · tx)
    return (0,s.closeQueue tx.src)
  return (0,s)

def removeTx (tx : Tx) (outofbound : Bool) : Except Panic (ℕ × LegacyPool) :=
  if !s.all.get tx then .ok (0,s)
  else
    let s := s.forget [tx]
    (if outofbound then s.removed chain 1 else s).takeOut config chain tx

def removeAll (txs : List Tx) (outofbound : Bool) : Except Panic LegacyPool :=
  txs.foldlM (fun s tx => do return (← s.removeTx config chain tx outofbound).2) s

def options : ValidationOptionsWithState where
  state := s.currentState
  firstNonceGap := none
  usedAndLeftSlots := none
  existingExpenditure addr := ((s.pending.lookup addr).elim 0 (·.totalcost))+(s.pendingGas addr).getD 0
  existingCost addr nonce := ((s.pending.lookup addr).bind (·.txs.get nonce)).map Tx.cost
  existingTx := some fun addr nonce => (s.pending.lookup addr).bind (·.txs.get nonce)
  anzeonTipEnv := some s.anzeonTipEnv

/-- An account that exists without code is not delegated. -/
def checkDelegationLimit (tx : Tx) : Option PoolError :=
  if s.currentState.exist tx.src && (s.currentState.getCode tx.src).isEmpty && !s.all.hasAuth tx.src then none
  else
    match s.pending.lookup tx.src with
    | none => if s.nonce tx.src≠tx.nonce then some .outOfOrderTxFromDelegated else none
    | some list => if list.contains tx.nonce then none else some .inflightTxLimitReached

/-- An authority has at most one transaction. -/
def validateAuth (a : Arrival) : Option PoolError :=
  let count (m : Lists) (addr : Address) : ℕ := (m.lookup addr).elim 0 (·.len)
  (s.checkDelegationLimit a.tx).or <| if a.tx.setCodeAuthorities.any fun addr =>
    1<count s.pending addr+count s.queue addr || a.reserved addr then some .authorityReserved else none

/-- All nonces from a start on are in the list. -/
def fills (list : TxList) : ℕ → ℕ → Bool
  | 0, _ => true
  | n+1, start => list.contains start && fills list n (start+1)

def isGapped (tx : Tx) : Bool :=
  s.nonce tx.src<tx.nonce && !(s.queue.lookup tx.src).any (fills · (tx.nonce-s.nonce tx.src) (s.nonce tx.src))

/-- Drop cheaper transactions if the pool is full. -/
def makeRoom (tx : Tx) (isLocal : Bool) : Except Panic (Option PoolError × LegacyPool) := do
  let limit := config.globalSlots+config.globalQueue
  if s.all.slots+tx.numSlots ≤ limit then return (none,s)
  let (underpriced,priced) :=
    if isLocal then (false,s.priced) else s.priced.underpriced (s.pricing chain) s.all tx
  let s := { s with priced }
  if underpriced then return (some .underpriced,s)
  if config.globalSlots/4<s.changesSinceReorg then return (some .txPoolOverflow,s)
  let (drop,priced) := s.priced.discard (s.pricing chain) s.all ((s.all.slots+tx.numSlots : ℕ)-(limit : ℤ)) isLocal
  let s := { s with priced }
  match drop with
  | none => return (some .txPoolOverflow,s)
  | some drop =>
    if !isLocal && s.isGapped tx && drop.any s.isPending then
      return (some .futureReplacePending,
        { s with priced := drop.foldl (fun l tx => l.put (s.pricing chain) tx false) s.priced })
    let s ← drop.foldlM (fun s tx => do
      let (dropped,s) ← s.removeTx config chain tx false
      return { s with changesSinceReorg := s.changesSinceReorg+dropped }) s
    return (none,s)

/-- A sender that is local from now on takes its remote transactions along. -/
def addLocal (addr : Address) : LegacyPool :=
  let locals := addr::s.locals
  let (all,migrated) := s.all.remoteToLocals locals
  { s with locals, all }.removed chain migrated

/-- Replace a pending transaction, or enter the queue. Returns whether one was replaced. -/
def place (tx : Tx) (isLocal asLocal : Bool) : Except Panic (Except PoolError Bool × LegacyPool) := do
  if s.isPending tx then
    let ((inserted,old),s) ← s.takePending tx.src (·.add · tx config.priceBump)
    if !inserted then return (.error .replaceUnderpriced,s)
    return (.ok old.isSome,(s.supersede chain old).record chain tx isLocal)
  let (replaced,s) ← s.enqueueTx config chain tx isLocal true
  match replaced with
  | none => return (.error .replaceUnderpriced,s)
  | some replaced => return (.ok replaced,if asLocal && tx.src ∉ s.locals then s.addLocal chain tx.src else s)

def add (a : Arrival) (asLocal : Bool) : Except Panic (Except PoolError Bool × LegacyPool) := do
  if s.all.get a.tx then return (.error .alreadyKnown,s)
  let isLocal := asLocal || a.tx.src ∈ s.locals
  let s := { s with
    tipCaps := Function.update s.tipCaps a.tx a.cap
    admissions := Function.update s.admissions a.tx (some (s.anzeonTipEnv.admission chain a.tx a.cap)) }
  match s.options.validateTransactionWithState chain a.tx s.tipCaps with
  | .error e => return (.error (.validation e),s)
  | .ok tipCaps =>
    let s := { s with tipCaps }
    match s.validateAuth a with
    | some e => return (.error e,s)
    | none =>
      if a.tx.src ∉ s.pending && a.tx.src ∉ s.queue && !a.held then return (.error .alreadyReserved,s)
      let (e,s) ← s.makeRoom config chain a.tx isLocal
      match e with
      | some e => return (.error e,s)
      | none => s.place config chain a.tx isLocal asLocal

def addTxsLocked (arrivals : List Arrival) (asLocal : Bool) : Except Panic LegacyPool :=
  arrivals.foldlM (fun s a => do return (← s.add config chain a asLocal).2) s

def txMaxSize : ℕ := 8*Tx.slotSize

/-- `LegacyPool.Add`: what is known or invalid by itself is left out before the pool is locked. -/
def addTxs (arrivals : List Arrival) (asLocal : Bool) : Except Panic LegacyPool :=
  let asLocal := asLocal && !config.noLocals
  let opts : ValidationOptions := ⟨fun _ => true,txMaxSize,if asLocal then 0 else s.gasTip⟩
  s.addTxsLocked config chain (arrivals.filter fun a =>
    !s.all.get a.tx && (validateTransaction chain opts s.currentHead a.tx).isOk) asLocal

def filterList (addr : Address) (list : TxList) (gas : PendingGas) :
    Except Panic ((List Tx × List Tx) × TxList × PendingGas) :=
  list.filter gas (chain.isApplepie s.currentHead.number) s.currentState (s.currentState.getBalance addr).toNat
    s.currentHead.gasLimit

def promoteAccount (addr : Address) : Except Panic LegacyPool := do
  if addr ∉ s.queue then return s
  let (forwards,s) ← s.takeQueued addr (·.forward · (s.stateNonce addr))
  let s := s.forget forwards
  let ((drops,_),s) ← s.takeQueued addr (s.filterList chain addr)
  let s := s.forget drops
  let (readies,s) ← s.takeQueued addr (·.ready · (s.nonce addr))
  let s ← readies.foldlM (promoteTx config chain) s
  let (caps,s) ← if addr ∈ s.locals then pure ([],s) else s.takeQueued addr (·.cap · config.accountQueue)
  let s := (s.forget caps).removed chain (forwards.length+drops.length+caps.length)
  return s.closeQueue addr

def promoteExecutables (accounts : List Address) : Except Panic LegacyPool :=
  accounts.foldlM (promoteAccount config chain) s

/-- What cannot be executed now is queued again. -/
def demoteAccount (addr : Address) : Except Panic LegacyPool := do
  let (olds,s) ← s.takePending addr (·.forward · (s.stateNonce addr))
  let s := s.forget olds
  let ((drops,invalids),s) ← s.takePending addr (s.filterList chain addr)
  let s ← (s.forget drops).requeue config chain invalids
  let gap := (s.pending.lookup addr).any fun list => !list.isEmpty && !list.contains (s.stateNonce addr)
  let (gapped,s) ← s.takePending addr fun list gas => if gap then list.cap gas 0 else .ok ([],list,gas)
  let s ← s.requeue config chain gapped
  return s.closePending addr

def demoteUnexecutables (order : List Address) : Except Panic LegacyPool :=
  (s.pending.inOrder order).foldlM (demoteAccount config chain) s

/-- Drop the last pending transaction. -/
def capOne (addr : Address) : Except Panic LegacyPool := do
  let (caps,s) ← s.takePending addr fun list gas =>
    if list.isEmpty then .error .indexOutOfRange else list.cap gas (list.len-1)
  let s := caps.foldl (fun s tx => s.setIfLower addr tx.nonce) (s.forget caps)
  return s.removed chain caps.length

/-- While there are too many pending transactions, and more than a limit of an account, drop one of each offender. -/
def reduce (limit : ℕ) (last : Address) (offenders : List Address) :
    ℕ → LegacyPool → ℕ → Except Panic (LegacyPool × ℕ)
  | 0, s, pending => .ok (s,pending)
  | fuel+1, s, pending =>
    if pending ≤ config.globalSlots then .ok (s,pending)
    else
      match s.pending.lookup last with
      | none => .error .nilList
      | some list =>
        if list.len ≤ limit then .ok (s,pending)
        else do
          let s ← offenders.foldlM (capOne chain) s
          reduce limit last offenders fuel s (pending-offenders.length)

/-- Equalise the offenders, the latest first, one spammer after the other. -/
def equalize : List Address → List Address → LegacyPool → ℕ → Except Panic (List Address × LegacyPool × ℕ)
  | [], offenders, s, pending => .ok (offenders,s,pending)
  | spammer::spammers, offenders, s, pending =>
    if pending ≤ config.globalSlots then .ok (offenders,s,pending)
    else
      match offenders, s.pending.lookup spammer with
      | [], _ => equalize spammers [spammer] s pending
      | _, none => .error .nilList
      | last::rest, some list => do
        let (s,pending) ← reduce config chain list.len last (last::rest).reverse pending s pending
        equalize spammers (spammer::last::rest) s pending

def size (m : Lists) (addr : Address) : ℕ := (m.lookup addr).elim 0 (·.len)

def truncatePending (order : List Address) : Except Panic LegacyPool := do
  let pending := (s.pending.entries.map (·.2.len)).sum
  if pending ≤ config.globalSlots then return s
  let large := (s.pending.inOrder order).filter fun addr => addr ∉ s.locals && config.accountSlots<size s.pending addr
  let spammers := large.insertionSort fun a b => size s.pending b ≤ size s.pending a
  let (offenders,s,pending) ← equalize config chain spammers [] s pending
  match offenders with
  | [] => return s
  | last::rest =>
    return (← reduce config chain config.accountSlots last (last::rest).reverse pending s pending).1

/-- Drop so many transactions, whole queues first. -/
def dropQueued : List Address → ℕ → LegacyPool → Except Panic LegacyPool
  | [], _, s => .ok s
  | addr::addrs, drop, s => do
    if drop=0 then return s
    let txs := (s.queue.lookup addr).elim [] (·.flatten)
    if txs.length ≤ drop then
      let s ← s.removeAll config chain txs true
      dropQueued addrs (drop-txs.length) s
    else s.removeAll config chain (txs.reverse.take drop) true

/-- The accounts are given by their heartbeats. -/
def truncateQueue (order : List Address) : Except Panic LegacyPool :=
  let queued := (s.queue.entries.map (·.2.len)).sum
  if queued ≤ config.globalQueue then .ok s
  else dropQueued config chain ((s.queue.inOrder order).filter (· ∉ s.locals)) (queued-config.globalQueue) s

/-- A reset without transactions to inject again has returned early. -/
def reset (newHead : Header) (reinject : Option (List Arrival)) : Except Panic LegacyPool :=
  match reinject, chain.stateAt newHead.root with
  | some reinject, some statedb =>
    { s with
      currentHead := newHead
      currentState := statedb
      pendingNonces := fun _ => none
      anzeonTipEnv := s.anzeonTipEnv.setCurrentBlock chain newHead }.addTxsLocked config chain reinject false
  | _, _ => .ok s

/-- The base fee of the next block, and new heaps. -/
def reprice (newHead : Header) : LegacyPool :=
  let s := if chain.config.isLondon (newHead.number+1) then
    { s with anzeonTipEnv := s.anzeonTipEnv.setBaseFee (Chain.calcBaseFee chain.config newHead) } else s
  { s with priced := PricedList.reheap (s.pricing chain) s.all s.priced }

def setAll : Except Panic LegacyPool := do
  let nonces ← s.pending.entries.foldlM (fun (nonces : Address → Option ℕ) e => do
    let highest ← e.2.txs.lastElement
    return Function.update nonces e.1 (some ((highest.nonce+1)%2^64))) fun _ => none
  return { s with pendingNonces := nonces }

/-- The orders in which a reorganisation walks the maps. -/
structure Orders where
  queue : List Address
  pending : List Address
  spammers : List Address
  heartbeats : List Address

def runReorg (request : Option (Header × Option (List Arrival))) (dirty : List Address) (orders : Orders) :
    Except Panic LegacyPool := do
  let s ← match request with
    | none => s.promoteExecutables config chain dirty
    | some (newHead,reinject) => do
      let s ← s.reset config chain newHead reinject
      let s ← s.promoteExecutables config chain (s.queue.inOrder orders.queue)
      let s ← s.demoteUnexecutables config chain orders.pending
      (s.reprice chain newHead).setAll
  let s ← s.truncatePending config chain orders.spammers
  let s ← s.truncateQueue config chain orders.heartbeats
  return { s with changesSinceReorg := 0 }

/-- A higher tip drops the remote transactions below. -/
def setGasTip (tip : ℕ) (order : List Tx) : Except Panic LegacyPool := do
  let old := s.gasTip
  let s := { s with gasTip := tip }
  if tip ≤ old then return s
  let drop := s.all.remotesBelowTip s.tipCaps tip order
  return (← s.removeAll config chain drop false).removed chain drop.length

/-- The queues of remote accounts without a recent heartbeat are dropped. -/
def evict (expired : List Address) : Except Panic LegacyPool :=
  (expired.filter (· ∉ s.locals)).foldlM
    (fun s addr => s.removeAll config chain ((s.queue.lookup addr).elim [] (·.flatten)) true) s

structure PendingFilter where
  baseFee : Option ℕ
  header : Option Header

/-- The environment of a request for pending transactions stays with the pool. -/
def enter (filter : PendingFilter) : LegacyPool :=
  let env := s.anzeonTipEnv.setCurrentBlock chain filter.header
  { s with anzeonTipEnv := if filter.baseFee.isSome then env.setBaseFee filter.baseFee else env }

inductive Op where
  | add (arrivals : List Arrival) (asLocal : Bool)
  | runReorg (request : Option (Header × Option (List Arrival))) (dirty : List Address) (orders : Orders)
  | setGasTip (tip : ℕ) (order : List Tx)
  | evict (expired : List Address)
  | pending (filter : PendingFilter)

def step : Op → Except Panic LegacyPool
  | .add arrivals asLocal => s.addTxs config chain arrivals asLocal
  | .runReorg request dirty orders => s.runReorg config chain request dirty orders
  | .setGasTip tip order => s.setGasTip config chain tip order
  | .evict expired => s.evict config chain expired
  | .pending filter => .ok (s.enter chain filter)

def run (ops : List Op) : Except Panic LegacyPool := ops.foldlM (step config chain) s

def init (gasTip : ℕ) (head : Header) (statedb : Evm.StateDB) (locals : List Address) (walks : ℕ → List Tx) :
    LegacyPool where
  gasTip
  currentHead := head
  currentState := statedb
  pendingNonces _ := none
  locals
  pending := ∅
  queue := ∅
  pendingGas _ := none
  all := .empty
  priced := .empty walks
  changesSinceReorg := 0
  anzeonTipEnv :=
    let env := AnzeonTipEnv.setCurrentBlock chain ⟨none,none,none⟩ head
    if chain.config.isLondon (head.number+1) then env.setBaseFee (Chain.calcBaseFee chain.config head) else env
  tipCaps _ := none
  admissions _ := none

end LegacyPool

end StableNet.Pool
