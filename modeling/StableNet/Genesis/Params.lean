import StableNet.Chain.Header
import StableNet.Lib.BigEndian
import StableNet.Lib.Except
import Mathlib.Logic.Function.Basic

/-! The parameters of the system contracts and the slots they are written to. A slot that is a hash is a term over
what was hashed. -/
namespace StableNet.Genesis
open Chain (Address Bytes)
open Lib
variable {address : Address} {states : List StateParam} {k : Slot}

abbrev Params := String → Option String

/-- `unicode.IsSpace` -/
def isSpace (c : Char) : Bool :=
  ['\t','\n','\x0b','\x0c','\r',' ','\u0085','\u00a0','\u1680',
    '\u2000','\u2001','\u2002','\u2003','\u2004','\u2005','\u2006','\u2007','\u2008',
    '\u2009','\u200a','\u2028','\u2029','\u202f','\u205f','\u3000'].contains c

def trimSpace (cs : List Char) : List Char := ((cs.dropWhile isSpace).reverse.dropWhile isSpace).reverse

/-- The entries of a comma-separated list; an empty one is dropped. -/
def splitAndTrim (s : String) : List (List Char) := ((s.toList.splitOn ',').map trimSpace).filter (· ≠ [])

def digit? (c : Char) : Option ℕ := if '0' ≤ c ∧ c ≤ '9' then some (c.toNat - '0'.toNat) else none

def hexDigit? (c : Char) : Option ℕ :=
  if '0' ≤ c ∧ c ≤ '9' then some (c.toNat - '0'.toNat)
  else if 'a' ≤ c ∧ c ≤ 'f' then some (c.toNat - 'a'.toNat+10)
  else if 'A' ≤ c ∧ c ≤ 'F' then some (c.toNat - 'A'.toNat+10)
  else none

/-- `hex.DecodeString` without its error: the bytes before the first invalid pair. -/
def hex2Bytes : List Char → Bytes
  | a::b::cs =>
    match hexDigit? a, hexDigit? b with
    | some x, some y => BitVec.ofNat 8 (16*x+y)::hex2Bytes cs
    | _, _ => []
  | _ => []

def has0xPrefix : List Char → Bool
  | '0'::c::_ => c = 'x' || c = 'X'
  | _ => false

def fromHex (cs : List Char) : Bytes :=
  let cs := if has0xPrefix cs then cs.drop 2 else cs
  hex2Bytes (if (cs.map Char.utf8Size).sum%2=1 then '0'::cs else cs)

/-- Longer strings are cropped from the left. -/
def hexToAddress (cs : List Char) : Address := BitVec.ofNat 160 (BigEndian.decode (fromHex cs))

def parseDigits (bits : ℕ) : ℕ → List Char → Except String ℕ
  | n, [] => .ok n
  | n, c::cs =>
    match digit? c with
    | none => .error "invalid syntax"
    | some d => if n*10+d<2^bits then parseDigits bits (n*10+d) cs else .error "value out of range"

/-- `strconv.ParseUint(s, 10, bits)` -/
def parseUint (s : String) (bits : ℕ) : Except String ℕ :=
  (if s.toList = [] then .error "invalid syntax" else parseDigits bits 0 s.toList).mapError
    fun e => "strconv.ParseUint: parsing \"" ++ s ++ "\": " ++ e

/-- `common.BigToHash(big.NewInt(int64(n)))` of a `uint64`: a negative number is stored by its absolute
value. -/
def int64ToHash (n : ℕ) : ℕ := if n<2^63 then n else 2^64-n

/-- A slot of a contract: a declared one, the entry of a mapping or the element of a dynamic array. -/
inductive Slot where
  | fixed (n : ℕ)
  | mapping (slot : Slot) (key : Bytes)
  | element (slot : Slot) (index : ℕ)
  deriving DecidableEq

/-- `common.LeftPadBytes(key.Bytes(), 32)` -/
def leftPadBytes (key : ℕ) : Bytes :=
  if key<256^32 then BigEndian.encode 32 key else BigEndian.encode (Nat.log 256 key+1) key

def calculateMappingSlot (slot : Slot) (key : ℕ) : Slot := .mapping slot (leftPadBytes key)

def calculateDynamicSlot (slot : Slot) (index : ℕ) : Slot := .element slot index

lemma decode_leftPadBytes (key : ℕ) : BigEndian.decode (leftPadBytes key) = key := by
  unfold leftPadBytes
  split
  · rename_i h
    rw [BigEndian.decode_encode,Nat.mod_eq_of_lt h]
  · rw [BigEndian.decode_encode,Nat.mod_eq_of_lt (Nat.lt_pow_succ_log_self (by decide) key)]

lemma calculateMappingSlot_inj {slot slot' : Slot} {key key' : ℕ} :
    calculateMappingSlot slot key = calculateMappingSlot slot' key' ↔ slot=slot' ∧ key=key' := by
  constructor
  · intro h
    obtain ⟨hslot,hkey⟩ := Slot.mapping.inj h
    exact ⟨hslot,by rw [← decode_leftPadBytes key,hkey,decode_leftPadBytes]⟩
  · rintro ⟨rfl,rfl⟩
    rfl

lemma mappingSlot_address_inj {slot slot' : Slot} {a b : Address} :
    calculateMappingSlot slot a.toNat = calculateMappingSlot slot' b.toNat ↔ slot=slot' ∧ a=b := by
  rw [calculateMappingSlot_inj,BitVec.toNat_inj]

/-- The declared slot that a slot belongs to. -/
def Slot.root : Slot → ℕ
  | .fixed n => n
  | .mapping slot _ => slot.root
  | .element slot _ => slot.root

@[simp]
lemma root_calculateMappingSlot (slot : Slot) (key : ℕ) : (calculateMappingSlot slot key).root = slot.root := rfl

@[simp]
lemma root_calculateDynamicSlot (slot : Slot) (index : ℕ) : (calculateDynamicSlot slot index).root = slot.root := rfl

@[simp]
lemma root_fixed (n : ℕ) : (Slot.fixed n).root = n := rfl

structure StateParam where
  address : Address
  key : Slot
  value : ℕ
  deriving DecidableEq

/-- The storage that some writes leave. -/
def storageOf (address : Address) (states : List StateParam) : Slot → ℕ :=
  states.foldl (fun st w => if w.address=address then Function.update st w.key w.value else st) fun _ => 0

lemma storageOf_append_singleton (address : Address) (states : List StateParam) (w : StateParam) (k : Slot) :
    storageOf address (states++[w]) k =
      if w.address=address ∧ w.key=k then w.value else storageOf address states k := by
  simp only [storageOf,List.foldl_append,List.foldl_cons,List.foldl_nil]
  by_cases ha : w.address=address
  · by_cases hk : w.key=k
    · simp [ha,hk]
    · simp [ha,hk,Function.update_of_ne (Ne.symm hk)]
  · simp [ha]

lemma storageOf_append_of_ne {extra : List StateParam}
    (h : ∀ w ∈ extra, w.key≠k) : storageOf address (states++extra) k = storageOf address states k := by
  induction extra using List.reverseRecOn with
  | nil => rw [List.append_nil]
  | append_singleton extra w ih =>
    rw [← List.append_assoc,storageOf_append_singleton,if_neg fun hc => h w (by simp) hc.2]
    exact ih fun w hw => h w (by simp [hw])

lemma storageOf_eq_zero (h : ∀ w ∈ states, w.address=address → w.key≠k) : storageOf address states k=0 := by
  induction states using List.reverseRecOn with
  | nil => rfl
  | append_singleton states w ih =>
    have hw := h w (by simp)
    rw [storageOf_append_singleton,if_neg fun hc => hw hc.1 hc.2]
    exact ih fun w hw => h w (by simp [hw])

lemma storageOf_eq {x : ℕ} (hmem : ⟨address,k,x⟩ ∈ states) (h : ∀ w ∈ states, w.key=k → w.value=x) :
    storageOf address states k=x := by
  induction states using List.reverseRecOn with
  | nil => cases hmem
  | append_singleton states w ih =>
    rw [storageOf_append_singleton]
    split
    · rename_i hw
      exact h w (by simp) hw.2
    · rename_i hw
      refine ih ?_ fun w hw => h w (by simp [hw])
      rcases List.mem_append.mp hmem with hmem | hmem
      · exact hmem
      · obtain rfl := List.mem_singleton.mp hmem
        exact absurd ⟨rfl,rfl⟩ hw

section
variable {writes : Slot → ℕ → Prop} {x : ℕ}

lemma storageOf_eq_of_table (htable : ∀ w ∈ states, writes w.key w.value) (hmem : ⟨address,k,x⟩ ∈ states)
    (hunique : ∀ y, writes k y → y=x) : storageOf address states k=x := by
  refine storageOf_eq hmem fun w hw hk => hunique w.value ?_
  rw [← hk]
  exact htable w hw

lemma storageOf_eq_zero_of_table (htable : ∀ w ∈ states, writes w.key w.value) (h : ∀ x, ¬ writes k x) :
    storageOf address states k=0 := storageOf_eq_zero fun w hw _ hk => h w.value (hk ▸ htable w hw)

end

end StableNet.Genesis
