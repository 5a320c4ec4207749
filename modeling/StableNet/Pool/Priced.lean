import StableNet.Lib.Heap
import StableNet.Pool.Transaction

/-! The remote transactions by price, in two heaps that share the environment tips are compared in and keep what has
left the pool. -/
namespace StableNet.Pool
open Chain (Address Header)
open Lib

/-- A walk over a map: its elements in a given order as far as it goes, then the others. -/
def walk {α : Type} [DecidableEq α] (elements order : List α) : List α :=
  (order.filter (· ∈ elements)).dedup++elements.filter (· ∉ order)

/-- All transactions of the pool, apart by origin. Slots and authorities are counted from them. -/
structure Lookup where
  locals : List Tx
  remotes : List Tx

namespace Lookup
variable (t : Lookup) (tx : Tx)

def empty : Lookup := ⟨[],[]⟩

def get : Bool := tx ∈ t.locals || tx ∈ t.remotes

def getRemote : Bool := tx ∈ t.remotes

def slots : ℕ := ((t.locals++t.remotes).map Tx.numSlots).sum

def add (isLocal : Bool) : Lookup :=
  if isLocal then { t with locals := t.locals.insert tx } else { t with remotes := t.remotes.insert tx }

def remove : Lookup := ⟨t.locals.filter (· ≠ tx),t.remotes.filter (· ≠ tx)⟩

/-- Also returns how many were moved. -/
def remoteToLocals (locals : List Address) : Lookup × ℕ :=
  let migrated := t.remotes.filter (·.src ∈ locals)
  (⟨t.locals++migrated,t.remotes.filter (·.src ∉ locals)⟩,migrated.length)

/-- The remembered tip cap counts, if there is one. The map is walked in the given order. -/
def remotesBelowTip (caps : TipCaps) (threshold : ℕ) (order : List Tx) : List Tx :=
  (walk t.remotes order).filter fun tx => (caps tx).getD tx.gasTipCap<threshold

def hasAuth (addr : Address) : Bool := (t.locals++t.remotes).any (addr ∈ ·.setCodeAuthorities)

end Lookup

/-- What prices are compared in: the environment and the remembered tip caps. -/
structure Pricing where
  chain : BlockChain
  env : AnzeonTipEnv
  caps : TipCaps

namespace Pricing
variable (p : Pricing) (a b : Tx)

/-- `priceHeap.cmp` -/
def cmp : Ordering :=
  match p.env.getBaseFee with
  | some _ => (a.effectiveGasTipCmp p.chain p.env p.caps b).then (compare a.gasFeeCap b.gasFeeCap)
  | none => (compare a.gasFeeCap b.gasFeeCap).then (compare a.gasTipCap b.gasTipCap)

/-- Of two transactions at the same price, that with the higher nonce comes first. -/
def less : Bool :=
  match p.cmp a b with
  | .lt => true
  | .gt => false
  | .eq => b.nonce<a.nonce

end Pricing

/-- The two heaps; `walks` are the orders in which the remote transactions will be walked when they are built anew. -/
structure PricedList where
  urgent : List Tx
  floating : List Tx
  stales : ℤ
  walks : ℕ → List Tx

namespace PricedList
variable (p : Pricing) (all : Lookup) (l : PricedList)

def urgentRatio : ℕ := 4

def floatingRatio : ℕ := 1

def empty (walks : ℕ → List Tx) : PricedList := ⟨[],[],0,walks⟩

/-- Local transactions have no price to compare. -/
def put (tx : Tx) (isLocal : Bool) : PricedList :=
  if isLocal then l else { l with urgent := Heap.push p.less tx l.urgent }

def popMany : ℕ → List Tx → List Tx × List Tx
  | 0, heap => ([],heap)
  | n+1, heap =>
    match Heap.pop p.less heap with
    | none => ([],heap)
    | some (tx,heap) =>
      let (popped,heap) := popMany n heap
      (tx::popped,heap)

/-- The cheapest fifth of the remote transactions goes to the floating heap. -/
def reheap : PricedList :=
  let urgent := Heap.init p.less (walk all.remotes (l.walks 0))
  let floatingCount := urgent.length*floatingRatio/(urgentRatio+floatingRatio)
  let (floating,urgent) := popMany p floatingCount urgent
  ⟨urgent,Heap.init p.less floating,0,fun n => l.walks (n+1)⟩

/-- The heaps are built anew when a quarter of them is stale. -/
def removed (count : ℕ) : PricedList :=
  let stales := l.stales+count
  if stales ≤ ((l.urgent.length+l.floating.length)/4 : ℕ) then { l with stales } else reheap p all l

/-- Pop what has left the pool off the root; also returns how many those were. -/
def popStales : ℕ → List Tx → List Tx × ℕ
  | 0, heap => (heap,0)
  | fuel+1, heap =>
    match heap with
    | [] => ([],0)
    | head::_ =>
      if all.getRemote head then (heap,0)
      else
        match Heap.pop p.less heap with
        | none => (heap,0)
        | some (_,heap) =>
          let (heap,count) := popStales fuel heap
          (heap,count+1)

/-- The transaction is not above the root of the heap. -/
def underpricedFor (heap : List Tx) (tx : Tx) : Bool :=
  match heap with
  | [] => false
  | head::_ => p.cmp head tx ≠ .lt

/-- The floating heap is looked at only if the urgent one does not decide. -/
def underpriced (tx : Tx) : Bool × PricedList :=
  let (urgent,count) := popStales p all l.urgent.length l.urgent
  let l := { l with urgent, stales := l.stales-count }
  if underpricedFor p l.urgent tx || l.urgent.isEmpty then
    let (floating,count) := popStales p all l.floating.length l.floating
    let l := { l with floating, stales := l.stales-count }
    ((underpricedFor p l.floating tx || l.floating.isEmpty) && (!l.urgent.isEmpty || !l.floating.isEmpty),l)
  else (false,l)

/-- One round of the loop of `Discard`: the transaction to drop, if it found one. -/
def discardStep : Option (Option Tx × PricedList) :=
  if l.floating.length*urgentRatio<l.urgent.length*floatingRatio then
    (Heap.pop p.less l.urgent).map fun (tx,urgent) =>
      if all.getRemote tx then (none,{ l with urgent, floating := Heap.push p.less tx l.floating })
      else (none,{ l with urgent, stales := l.stales-1 })
  else
    (Heap.pop p.less l.floating).map fun (tx,floating) =>
      if all.getRemote tx then (some tx,{ l with floating }) else (none,{ l with floating, stales := l.stales-1 })

/-- Drop transactions until there are enough slots, or both heaps are empty. -/
def discardLoop : ℕ → ℤ → List Tx → PricedList → List Tx × ℤ × PricedList
  | 0, slots, drop, l => (drop,slots,l)
  | fuel+1, slots, drop, l =>
    if slots ≤ 0 then (drop,slots,l)
    else
      match discardStep p all l with
      | none => (drop,slots,l)
      | some (none,l) => discardLoop fuel slots drop l
      | some (some tx,l) => discardLoop fuel (slots-tx.numSlots) (drop++[tx]) l

/-- Every transaction is popped at most once off each heap. -/
def discard (slots : ℤ) (force : Bool) : Option (List Tx) × PricedList :=
  let (drop,slots,l) := discardLoop p all (2*l.urgent.length+l.floating.length) slots [] l
  if 0<slots && !force then (none,{ l with urgent := drop.foldl (fun heap tx => Heap.push p.less tx heap) l.urgent })
  else (some drop,l)

end PricedList

end StableNet.Pool
