import StableNet.Lib.Tree
import StableNet.Lib.BigEndian
import StableNet.Evm.StateDB

/-! Contract code as the machine sees it: a program of operations on the world. What the code computes
on its stack and memory in between is left to the program. -/
namespace StableNet.Evm
open Chain (Address Bytes)
open Lib

inductive CallKind where
  | call
  | callCode
  | delegateCall
  | staticCall
  deriving DecidableEq

inductive VmError where
  | outOfGas
  | codeStoreOutOfGas
  | depth
  | insufficientBalance
  | contractAddressCollision
  | executionReverted
  | maxCodeSizeExceeded
  | writeProtection
  | invalidCode
  | nonceUintOverflow
  | blacklistedAccount (address : Address)
  | zeroAddressTransfer
  | valueTransferToPrecompile
  | unauthorized
  | invalidSelectorLength
  | invalidMethod
  | invalidInputLength
  | invalidCallContext (callContext : CallKind)
  | precompileFailed
  /-- Stack, jump and opcode errors. -/
  | fault
  deriving DecidableEq

structure Contract where
  callerAddress : Address
  self : Address
  code : Bytes
  value : Word
  input : Bytes
  gas : ℕ

inductive Op where
  | gas
  | balance (a : Address)
  | extCode (a : Address)
  | sload (key : Slot)
  | tload (key : Slot)
  | sstore (key : Slot) (value : Word)
  | tstore (key : Slot) (value : Word)
  | log (topics : List Word) (data : Bytes)
  | selfdestruct (beneficiary : Address)
  | call (kind : CallKind) (gas : ℕ) (addr : Address) (value : Word) (input : Bytes)
  | create (value : Word) (init : Bytes)
  | create2 (value : Word) (init : Bytes) (salt : Word)

/-- What the operation leaves for the program: a call its success and return data, a creation the
pushed address and the return data of a revert. -/
def Op.Answer : Op → Type
  | gas => ℕ
  | balance _ | sload _ | tload _ => Word
  | extCode _ => Bytes
  | sstore _ _ | tstore _ _ | log _ _ => Unit
  | selfdestruct _ => Empty
  | call _ _ _ _ _ => Bool × Bytes
  | create _ _ | create2 _ _ _ => Word × Bytes

/-- How a program ends other than by returning. -/
inductive Halt where
  | stop
  | revert (ret : Bytes)
  | error (e : VmError)

abbrev Program (α : Type) := Tree Op Op.Answer Halt α

def encodeWord (w : Word) : Bytes := BigEndian.encode 32 w.toNat

def bytesToWord (bytes : Bytes) : Word := BitVec.ofNat 256 (BigEndian.decode bytes)

def bytesToAddress (bytes : Bytes) : Address := BitVec.ofNat 160 (BigEndian.decode bytes)

def addressWord (a : Address) : Word := a.setWidth 256

def encodeCall (selector : Bytes) (args : List Word) : Bytes := selector++args.flatMap encodeWord

def param (input : Bytes) (i : ℕ) : Bytes := ((input.drop 4).drop (32*i)).take 32

end StableNet.Evm
