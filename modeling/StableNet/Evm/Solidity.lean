import StableNet.Evm.NativeManager
import StableNet.Lib.Except

/-! What compiled Solidity does around the statements of a contract: reverts, checked arithmetic, encodings, strings
and calls. -/
namespace StableNet.Evm.Solidity
open Chain (Address Bytes)
open Lib

def utf8 (s : String) : Bytes := (s.toList.flatMap String.utf8EncodeChar).map UInt8.toBitVec

/-- Zeros up to a whole number of words. -/
def padding (length : ℕ) : Bytes := List.replicate ((32-length%32)%32) 0

/-- A byte string as the tail of an encoding: its length, then its bytes in whole words. -/
def encodeBytes (bytes : Bytes) : Bytes :=
  encodeWord (BitVec.ofNat 256 bytes.length)++bytes++padding bytes.length

def encodeBool (b : Bool) : Bytes := encodeWord (if b then 1 else 0)

def encodeWords (words : List Word) : Bytes := words.flatMap encodeWord

def encodeString (bytes : Bytes) : Bytes := encodeWord 0x20++encodeBytes bytes

/-- `Error(string)`, encoded. -/
def errorData (reason : String) : Bytes := [0x08,0xc3,0x79,0xa0]++encodeString (utf8 reason)

/-- `Panic(uint256)`, encoded. -/
def panicData (code : Word) : Bytes := encodeCall [0x4e,0x48,0x7b,0x71] [code]

def revert {α : Type} (ret : Bytes) : Program α := .halt (.revert ret)

def require (cond : Bool) (reason : String) : Program Unit := if cond then pure () else revert (errorData reason)

def perform (e : Op) : Program e.Answer := Tree.perform e

def sload (key : Slot) : Program Word := perform (.sload key)

def sstore (key : Slot) (value : Word) : Program Unit := perform (.sstore key value)

def loadAddress (key : Slot) : Program Address := do
  let word ← sload key
  return word.setWidth 160

def loadBool (key : Slot) : Program Bool := do
  let word ← sload key
  return word != 0

def emit (topics : List Word) (data : Bytes) : Program Unit := perform (.log topics data)

def balanceOf (a : Address) : Program Word := perform (.balance a)

def checkedAdd (a b : Word) : Program Word :=
  if a.toNat+b.toNat<2^256 then pure (a+b) else revert (panicData 0x11)

def checkedSub (a b : Word) : Program Word := if b ≤ a then pure (a-b) else revert (panicData 0x11)

/-- A call without value that takes all gas it can get. -/
def lowLevelCall (kind : CallKind) (addr : Address) (input : Bytes) : Program (Bool × Bytes) := do
  let gas : ℕ ← perform .gas
  perform (.call kind gas addr 0 input)

/-- The data words of a long string. -/
def loadWords (slot : Slot) : ℕ → Program Bytes
  | 0 => pure []
  | n+1 => do
    let bytes ← loadWords slot n
    let word ← sload (.element slot n)
    return bytes++encodeWord word

/-- A short string stands in its slot, a long one in the words the slot leads to. -/
def loadString (slot : Slot) : Program Bytes := do
  let word ← sload slot
  if word.toNat%2=0 then
    let length := word.toNat%256/2
    if length<32 then return (encodeWord word).take length else revert (panicData 0x22)
  else
    let length := word.toNat/2
    if length<32 then revert (panicData 0x22)
    else
      let bytes ← loadWords slot ((length+31)/32)
      return bytes.take length

/-! Decoding; what does not fit is answered with the return data of a revert -/

abbrev Decoded (α : Type) := Except Bytes α

def argWord (input : Bytes) (i : ℕ) : Word := bytesToWord (param input i)

def decodeAddress (input : Bytes) (i : ℕ) : Decoded Address := do
  Lib.require ((argWord input i).toNat<2^160) []
  return (argWord input i).setWidth 160

def decodeUint8 (input : Bytes) (i : ℕ) : Decoded (BitVec 8) := do
  Lib.require ((argWord input i).toNat<2^8) []
  return (argWord input i).setWidth 8

/-- A byte string that the head refers to by its offset. -/
def decodeBytes (input : Bytes) (i : ℕ) : Decoded Bytes := do
  let offset := (argWord input i).toNat
  Lib.require (offset<2^64) []
  Lib.require (4+offset+31 < input.length) []
  let tail := input.drop (4+offset)
  let length := (bytesToWord (tail.take 32)).toNat
  Lib.require (length<2^64) (panicData 0x41)
  Lib.require (4+offset+32+length ≤ input.length) []
  return (tail.drop 32).take length

/-- The call data must have room for the head. -/
def decodeHead (input : Bytes) (words : ℕ) : Decoded Unit := Lib.require (4+32*words ≤ input.length) []

def decodeBool (result : Bytes) : Program Bool :=
  let word := bytesToWord (result.take 32)
  if result.length<32 then revert [] else if word=0 then pure false else if word=1 then pure true else revert []

end StableNet.Evm.Solidity
