import StableNet.Chain.Header
import StableNet.Lib.Quorum
import Mathlib.Algebra.Order.Floor.Ring
import Mathlib.Data.Rat.Floor
import Mathlib.Tactic.Linarith

/-! Validator sets, their proposer rule and their quorum size. -/
namespace StableNet.Wbft
open Chain
variable {v : ValidatorSet} {addr : Address}

structure Validator where
  address : Address
  blsPublicKey : PublicKey
  deriving DecidableEq

inductive ProposerPolicy where
  | roundRobin
  | sticky
  deriving DecidableEq

structure ValidatorSet where
  validators : List Validator
  policy : ProposerPolicy
  proposer : Option Validator
  deriving DecidableEq

namespace ValidatorSet

def newDefaultSet (validators : List Validator) (policy : ProposerPolicy) : ValidatorSet :=
  ⟨validators,policy,validators[0]?⟩

/-- Addresses paired with their keys; the source panics if there are fewer keys than addresses. -/
def newSet (addrs : List Address) (blsPublicKeys : List PublicKey) (policy : ProposerPolicy) : ValidatorSet :=
  newDefaultSet (addrs.zipWith Validator.mk blsPublicKeys) policy

def size (v : ValidatorSet) : ℕ := v.validators.length

def addressList (v : ValidatorSet) : List Address := v.validators.map Validator.address

def getByIndex (v : ValidatorSet) (i : ℕ) : Option Validator := v.validators[i]?

def getByAddress (v : ValidatorSet) (addr : Address) : Option Validator :=
  v.validators.find? fun val => val.address=addr

/-- The index part of `GetByAddress`, `none` for the source's `-1`. -/
def indexOf (v : ValidatorSet) (addr : Address) : Option ℕ :=
  v.validators.findIdx? fun val => val.address=addr

/-- `reflect.DeepEqual(GetProposer(), val)`, where both may be nil. -/
def isProposer (v : ValidatorSet) (addr : Address) : Bool := v.proposer = v.getByAddress addr

def calcSeed (v : ValidatorSet) (proposer : Address) (round : ℕ) : ℕ :=
  ((v.indexOf proposer).getD 0+round)%2^64

def roundRobinProposer (v : ValidatorSet) (proposer : Address) (round : ℕ) : Option Validator :=
  let seed := if proposer=0 then round else (v.calcSeed proposer round+1)%2^64
  v.getByIndex (seed%v.size)

def stickyProposer (v : ValidatorSet) (proposer : Address) (round : ℕ) : Option Validator :=
  let seed := if proposer=0 then round else v.calcSeed proposer round
  v.getByIndex (seed%v.size)

/-- The proposer of a round, from the proposer of the last block; the round is a `uint64`. -/
def calcProposer (v : ValidatorSet) (lastProposer : Address) (round : ℕ) : ValidatorSet :=
  let selector := match v.policy with
    | .roundRobin => roundRobinProposer
    | .sticky => stickyProposer
  { v with proposer := selector v lastProposer round }

/-- `ceil(n - F)` with `F = (n-1)/3`. -/
def quorumSize (v : ValidatorSet) : ℕ := (2*v.size+3)/3

/-- `num > F && num <= F + 1`, multiplied by three. -/
def reachesF1 (v : ValidatorSet) (num : ℕ) : Bool := v.size<3*num+1 ∧ 3*num ≤ v.size+2

/-- The integer form of the quorum size is the ceiling the source computes. -/
theorem quorumSize_eq_ceil (v : ValidatorSet) : (v.quorumSize : ℤ) = ⌈(v.size : ℚ)-((v.size : ℚ)-1)/3⌉ := by
  symm
  rw [Int.ceil_eq_iff]
  have hle : 3*v.quorumSize ≤ 2*v.size+3 := Nat.mul_div_le _ _
  have hlt : 2*v.size+3<3*v.quorumSize+3 := by unfold quorumSize; omega
  have hle' : (3 : ℚ)*v.quorumSize ≤ 2*v.size+3 := by exact_mod_cast hle
  have hlt' : (2 : ℚ)*v.size+1 ≤ 3*v.quorumSize := by
    have : 2*v.size+1 ≤ 3*v.quorumSize := by omega
    exact_mod_cast this
  constructor
  · push_cast
    linarith
  · push_cast
    linarith

lemma mem_of_getByAddress {val : Validator}
    (h : v.getByAddress addr = some val) : val ∈ v.validators ∧ val.address=addr := by
  refine ⟨List.mem_of_find?_eq_some h,?_⟩
  have := List.find?_some h
  simpa using this

def members (v : ValidatorSet) : Finset Address := v.addressList.toFinset

lemma members_eq_of_validators {w : ValidatorSet} (h : v.validators=w.validators) : v.members=w.members := by
  unfold ValidatorSet.members ValidatorSet.addressList
  rw [h]

lemma mem_members_of_getByAddress (h : (v.getByAddress addr).isSome) : addr ∈ v.members := by
  obtain ⟨val,hval⟩ := Option.isSome_iff_exists.mp h
  obtain ⟨hmem,rfl⟩ := mem_of_getByAddress hval
  exact List.mem_toFinset.mpr (List.mem_map_of_mem hmem)

lemma card_members_le (v : ValidatorSet) : v.members.card ≤ v.size := by
  refine (List.toFinset_card_le _).trans ?_
  simp [addressList,size]

lemma size_ne_zero_of_members (h : v.members.Nonempty) : v.size≠0 := by
  have := Finset.card_pos.mpr h
  have := v.card_members_le
  omega

/-- The quorums of a validator set of which at most `⌊(n-1)/3⌋` members are dishonest. -/
def quorums (v : ValidatorSet) (honest : Finset Address)
    (h : (v.members \ honest).card ≤ (v.size-1)/3) : Lib.QuorumSystem Address :=
  Lib.countingQuorums v.members honest v.quorumSize (by
    have := v.card_members_le
    unfold quorumSize
    omega)

end ValidatorSet

end StableNet.Wbft
