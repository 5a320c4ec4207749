import Mathlib.Data.Finmap
import Mathlib.Algebra.BigOperators.Group.Finset.Basic
import StableNet.Chain.Header
import StableNet.Lib.UndoLog

/-! The state a block is executed on, with its journal. Tries, snapshots, access lists and preimages are left out; an
object deleted by `finalise` leaves the map. -/
namespace StableNet.Evm
open Chain (Address Bytes)

abbrev Word := BitVec 256

/-- Storage slots, with the hash that lays out mappings and arrays kept symbolic. -/
inductive Slot where
  | base (n : ℕ)
  | mapping (slot : Slot) (key : Word)
  | element (slot : Slot) (index : ℕ)
  | field (slot : Slot) (offset : ℕ)
  deriving DecidableEq

/-- The bits of the `extra` word of an account. -/
inductive Flag where
  | blacklisted
  | authorized
  deriving DecidableEq

namespace Flag

def mask : Flag → BitVec 64
  | blacklisted => 1 <<< 63
  | authorized => 1 <<< 62

def hasBit (extra mask : BitVec 64) : Bool := extra &&& mask != 0

def setBit (extra mask : BitVec 64) : BitVec 64 := extra ||| mask

def clearBit (extra mask : BitVec 64) : BitVec 64 := extra &&& ~~~mask

end Flag

structure StateObject where
  nonce : BitVec 64
  balance : Word
  code : Bytes
  storage : Slot → Word
  extra : BitVec 64
  /-- Whether the object came into being in the current transaction. -/
  created : Bool
  selfDestructed : Bool

namespace StateObject

def new : StateObject where
  nonce := 0
  balance := 0
  code := []
  storage := fun _ => 0
  extra := 0
  created := true
  selfDestructed := false

/-- EIP-161, and no bit is set. -/
def empty (o : StateObject) : Bool := o.nonce == 0 && o.balance == 0 && o.code.isEmpty && o.extra == 0

def hasFlag (o : StateObject) (f : Flag) : Bool := Flag.hasBit o.extra f.mask

end StateObject

structure Log where
  address : Address
  topics : List Word
  data : Bytes
  deriving DecidableEq

inductive JournalEntry where
  | createObject (account : Address)
  | resetObject (account : Address) (prev : StateObject)
  | selfDestruct (account : Address) (prev : Bool) (prevbalance : Word)
  | balance (account : Address) (prev : Word)
  | nonce (account : Address) (prev : BitVec 64)
  | storage (account : Address) (key : Slot) (prevalue : Word)
  | code (account : Address) (prevcode : Bytes)
  | extra (account : Address) (prev : BitVec 64)
  | refund (prev : ℕ)
  | addLog
  | touch (account : Address)
  | transientStorage (account : Address) (key : Slot) (prevalue : Word)

/-- What the journal can give back. -/
structure State where
  objects : Finmap fun _ : Address => StateObject
  logs : List Log
  refund : ℕ
  transient : Address → Slot → Word

namespace State

def put (s : State) (a : Address) (o : StateObject) : State :=
  { s with objects := s.objects.insert a o }

/-- The object of an account, or the new one it would get. -/
def obj (s : State) (a : Address) : StateObject := (s.objects.lookup a).getD .new

def modify (s : State) (a : Address) (f : StateObject → StateObject) : State :=
  match s.objects.lookup a with
  | none => s
  | some o => s.put a (f o)

def setTransient (s : State) (a : Address) (key : Slot) (value : Word) : State :=
  { s with transient := Function.update s.transient a (Function.update (s.transient a) key value) }

end State

namespace JournalEntry

def revert : JournalEntry → State → State
  | createObject a, s => { s with objects := s.objects.erase a }
  | resetObject a prev, s => s.put a prev
  | selfDestruct a prev prevbalance, s =>
    s.modify a fun o => { o with selfDestructed := prev, balance := prevbalance }
  | balance a prev, s => s.modify a fun o => { o with balance := prev }
  | nonce a prev, s => s.modify a fun o => { o with nonce := prev }
  | storage a key prevalue, s =>
    s.modify a fun o => { o with storage := Function.update o.storage key prevalue }
  | code a prevcode, s => s.modify a fun o => { o with code := prevcode }
  | extra a prev, s => s.modify a fun o => { o with extra := prev }
  | refund prev, s => { s with refund := prev }
  | addLog, s => { s with logs := s.logs.dropLast }
  | touch _, s => s
  | transientStorage a key prevalue, s => s.setTransient a key prevalue

/-- The account that an entry makes dirty. -/
def dirtied : JournalEntry → Option Address
  | createObject a | resetObject a _ | selfDestruct a _ _ | balance a _ | nonce a _ | storage a _ _
  | code a _ | extra a _ | touch a => some a
  | refund _ | addLog | transientStorage _ _ _ => none

end JournalEntry

/-- The address whose touch outlives a revert. -/
def ripemd : Address := 3

structure StateDB extends State where
  journal : List JournalEntry
  /-- The explicit mark that a touch of `ripemd` leaves in the dirty set. -/
  ripemdDirty : Bool

namespace StateDB
variable (db : StateDB)

/-- Append a journal entry and move to the changed state. -/
def change (e : JournalEntry) (s : State) : StateDB :=
  { db with toState := s, journal := e::db.journal }

def snapshot : ℕ := db.journal.length

def logged : Lib.UndoLog.Logged State JournalEntry := ⟨db.toState,db.journal⟩

def revertToSnapshot (snapshot : ℕ) : StateDB :=
  let l := Lib.UndoLog.revertTo JournalEntry.revert snapshot db.logged
  { db with toState := l.state, journal := l.log }

def getStateObject (a : Address) : Option StateObject := db.objects.lookup a

def exist (a : Address) : Bool := (db.getStateObject a).isSome

def getBalance (a : Address) : Word := ((db.getStateObject a).map (·.balance)).getD 0

def getNonce (a : Address) : BitVec 64 := ((db.getStateObject a).map (·.nonce)).getD 0

def getCode (a : Address) : Bytes := ((db.getStateObject a).map (·.code)).getD []

def getExtra (a : Address) : BitVec 64 := ((db.getStateObject a).map (·.extra)).getD 0

def getState (a : Address) (key : Slot) : Word := ((db.getStateObject a).map (·.storage key)).getD 0

def hasFlag (f : Flag) (a : Address) : Bool := ((db.getStateObject a).map (·.hasFlag f)).getD false

def isBlacklisted (a : Address) : Bool := db.hasFlag .blacklisted a

def isAuthorized (a : Address) : Bool := db.hasFlag .authorized a

def createObject (a : Address) : StateDB :=
  match db.getStateObject a with
  | none => db.change (.createObject a) (db.put a .new)
  | some prev => db.change (.resetObject a prev) (db.put a .new)

/-- Create the object of an account if it is absent. -/
def getOrNewStateObject (a : Address) : StateDB :=
  match db.getStateObject a with
  | some _ => db
  | none => db.createObject a

/-- The balance is carried over to the new object, and nothing else. -/
def createAccount (a : Address) : StateDB :=
  let db' := db.createObject a
  match db.getStateObject a with
  | none => db'
  | some prev => { db' with toState := db'.put a { StateObject.new with balance := prev.balance } }

/-- The mark on `ripemd` outlives a revert. -/
def touch (a : Address) : StateDB :=
  let db' := db.change (.touch a) db.toState
  if a=ripemd then { db' with ripemdDirty := true } else db'

/-- Replace the object of an account, creating it first if it is absent. -/
def update (a : Address) (entry : StateObject → JournalEntry) (f : StateObject → StateObject) : StateDB :=
  let db := db.getOrNewStateObject a
  db.change (entry (db.obj a)) (db.put a (f (db.obj a)))

def setBalance (a : Address) (amount : Word) : StateDB :=
  db.update a (fun o => .balance a o.balance) fun o => { o with balance := amount }

def addBalance (a : Address) (amount : Word) : StateDB :=
  let db := db.getOrNewStateObject a
  if amount=0 then
    if (db.obj a).empty then db.touch a else db
  else db.setBalance a ((db.obj a).balance+amount)

def subBalance (a : Address) (amount : Word) : StateDB :=
  let db := db.getOrNewStateObject a
  if amount=0 then db else db.setBalance a ((db.obj a).balance-amount)

def setNonce (a : Address) (nonce : BitVec 64) : StateDB :=
  db.update a (fun o => .nonce a o.nonce) fun o => { o with nonce := nonce }

def setCode (a : Address) (code : Bytes) : StateDB :=
  db.update a (fun o => .code a o.code) fun o => { o with code := code }

def setState (a : Address) (key : Slot) (value : Word) : StateDB :=
  let db := db.getOrNewStateObject a
  if (db.obj a).storage key=value then db
  else db.update a (fun o => .storage a key (o.storage key)) fun o =>
    { o with storage := Function.update o.storage key value }

def setExtra (a : Address) (extra : BitVec 64) : StateDB :=
  db.update a (fun o => .extra a o.extra) fun o => { o with extra := extra }

def setFlag (f : Flag) (a : Address) : StateDB :=
  let db := db.getOrNewStateObject a
  if (db.obj a).hasFlag f then db else db.setExtra a (Flag.setBit (db.obj a).extra f.mask)

def clearFlag (f : Flag) (a : Address) : StateDB :=
  let db := db.getOrNewStateObject a
  if (db.obj a).hasFlag f then db.setExtra a (Flag.clearBit (db.obj a).extra f.mask)
  else if (db.obj a).empty then db.touch a else db

def setBlacklisted (a : Address) : StateDB := db.setFlag .blacklisted a

def clearBlacklisted (a : Address) : StateDB := db.clearFlag .blacklisted a

def setAuthorized (a : Address) : StateDB := db.setFlag .authorized a

def clearAuthorized (a : Address) : StateDB := db.clearFlag .authorized a

/-- Mark an account as self-destructed and clear its balance. -/
def selfDestruct (a : Address) : StateDB :=
  match db.getStateObject a with
  | none => db
  | some o =>
    db.change (.selfDestruct a o.selfDestructed o.balance)
      (db.put a { o with selfDestructed := true, balance := 0 })

/-- Only what the transaction created is destroyed. -/
def selfdestruct6780 (a : Address) : StateDB :=
  match db.getStateObject a with
  | none => db
  | some o => if o.created then db.selfDestruct a else db

def setTransientState (a : Address) (key : Slot) (value : Word) : StateDB :=
  let prev := db.transient a key
  if prev=value then db
  else db.change (.transientStorage a key prev) (db.setTransient a key value)

def addRefund (gas : ℕ) : StateDB :=
  db.change (.refund db.refund) { db.toState with refund := db.refund+gas }

def subRefund (gas : ℕ) : StateDB :=
  db.change (.refund db.refund) { db.toState with refund := db.refund-gas }

def addLog (log : Log) : StateDB := db.change .addLog { db.toState with logs := db.logs++[log] }

/-- The logs of the next transaction are collected under its own hash. -/
def setTxContext : StateDB := { db with logs := [] }

def prepare : StateDB := { db with transient := fun _ _ => 0 }

def dirties : List Address :=
  db.journal.filterMap JournalEntry.dirtied++if db.ripemdDirty then [ripemd] else []

/-- One address of `finalise`: a self-destructed or empty object is deleted. -/
def finaliseObject (objects : Finmap fun _ : Address => StateObject) (a : Address) :
    Finmap fun _ : Address => StateObject :=
  match objects.lookup a with
  | none => objects
  | some o =>
    if o.selfDestructed || o.empty then objects.erase a else objects.insert a { o with created := false }

def clearJournalAndRefund : StateDB :=
  if db.journal.isEmpty then db
  else { db with journal := [], ripemdDirty := false, refund := 0 }

def finalise : StateDB :=
  { db with objects := db.dirties.foldl finaliseObject db.objects }.clearJournalAndRefund

end StateDB

end StableNet.Evm
