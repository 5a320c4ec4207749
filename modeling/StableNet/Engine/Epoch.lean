import StableNet.Chain.BaseFee
import StableNet.Wbft.Validator
import Mathlib.Data.List.TakeWhile

/-! Epochs and the validators they fix. The last epoch block is looked up by number on the canonical chain, and along
the parents only if there is none. -/
namespace StableNet.Engine
open Chain Wbft

/-- A change of the consensus configuration at a block; zero means unchanged. -/
structure Transition where
  block : ℕ
  blockPeriodSeconds : ℕ
  epochLength : ℕ
  proposerPolicy : Option ProposerPolicy
  deriving DecidableEq

structure Config where
  blockPeriod : ℕ
  proposerPolicy : ProposerPolicy
  epoch : ℕ
  allowedFutureBlockTime : ℕ
  transitions : List Transition
  deriving DecidableEq

namespace Config
variable {n e : ℕ} {c : Config} {b : Bool}

def transitionsAt (c : Config) (number : ℕ) : List Transition :=
  c.transitions.takeWhile (·.block ≤ number)

/-- What a transition leaves out stays. -/
def applyTransition (c : Config) (t : Transition) : Config :=
  { c with
    blockPeriod := if t.blockPeriodSeconds≠0 then t.blockPeriodSeconds else c.blockPeriod
    epoch := if t.epochLength≠0 then t.epochLength else c.epoch
    proposerPolicy := t.proposerPolicy.getD c.proposerPolicy }

def getConfig (c : Config) (number : ℕ) : Config := (c.transitionsAt number).foldl applyTransition c

/-- The first block and the length of the epochs at a block. -/
def epochRule (c : Config) (number : ℕ) : ℕ × ℕ :=
  (c.transitionsAt number).foldl
    (fun rule t => if t.epochLength=0 then rule else (t.block,t.epochLength)) (0,c.epoch)

/-- Whether a block is an epoch block, and the last epoch block not above it; `none` is the source's
division by zero. -/
def isEpochBlockNumber (c : Config) (number : ℕ) : Option (Bool × ℕ) :=
  let (firstNewEpoch,epochLength) := c.epochRule number
  if epochLength=0 then none
  else
    let rem := (number-firstNewEpoch)%epochLength
    some (rem=0,number-rem)

def IsEpochBlock (c : Config) (number : ℕ) : Prop := ∃ last, c.isEpochBlockNumber number = some (true,last)

instance (c : Config) (number : ℕ) : Decidable (c.IsEpochBlock number) :=
  decidable_of_iff ((c.isEpochBlockNumber number).map Prod.fst = some true) (by
    unfold IsEpochBlock
    cases c.isEpochBlockNumber number with
    | none => simp
    | some x => simp [Prod.ext_iff])

/-- The transitions are sorted by block, as the node's configuration has them. -/
def Sorted (c : Config) : Prop := c.transitions.Pairwise fun s t => s.block ≤ t.block

/-- The epoch rule of a list of transitions, from a rule before them. -/
def ruleAt (transitions : List Transition) (rule : ℕ × ℕ) (number : ℕ) : ℕ × ℕ :=
  (transitions.takeWhile (·.block ≤ number)).foldl
    (fun rule t => if t.epochLength=0 then rule else (t.block,t.epochLength)) rule

lemma ruleAt_cons {t : Transition} {ts : List Transition} {rule : ℕ × ℕ} : ruleAt (t::ts) rule n =
      if t.block ≤ n then ruleAt ts (if t.epochLength=0 then rule else (t.block,t.epochLength)) n else rule := by
  unfold ruleAt
  by_cases h : t.block ≤ n <;> simp [h]

theorem ruleAt_fst (ts : List Transition) (rule : ℕ × ℕ) (n : ℕ) :
    ruleAt ts rule n=rule ∨ ∃ t ∈ ts, (ruleAt ts rule n).1 = t.block := by
  induction ts generalizing rule with
  | nil => exact .inl rfl
  | cons t ts ih =>
    rw [ruleAt_cons]
    split
    · rcases ih (if t.epochLength=0 then rule else (t.block,t.epochLength)) with h | ⟨s,hs,h⟩
      · rw [h]
        split
        · exact .inl rfl
        · exact .inr ⟨t,List.mem_cons_self,rfl⟩
      · exact .inr ⟨s,List.mem_cons_of_mem _ hs,h⟩
    · exact .inl rfl

theorem ruleAt_of_le {ts : List Transition} (hs : ts.Pairwise fun s t => s.block ≤ t.block) {rule : ℕ × ℕ}
    {m : ℕ} (hmn : m ≤ n) (hm : (ruleAt ts rule n).1 ≤ m) : ruleAt ts rule m = ruleAt ts rule n := by
  induction ts generalizing rule with
  | nil => rfl
  | cons t ts ih =>
    obtain ⟨hle,hs⟩ := List.pairwise_cons.mp hs
    rw [ruleAt_cons,ruleAt_cons] at *
    by_cases htm : t.block ≤ m
    · have htn : t.block ≤ n := by omega
      rw [if_pos htm]
      rw [if_pos htn] at hm ⊢
      exact ih hs hm
    · rw [if_neg htm]
      split at hm
      · rename_i htn
        rw [if_pos htn]
        -- a rule that starts at this transition or a later one would start above `m`
        rcases ruleAt_fst ts (if t.epochLength=0 then rule else (t.block,t.epochLength)) n
          with h | ⟨s,hsmem,h⟩
        · rw [h] at hm ⊢
          split at hm
          · rw [if_pos ‹_›]
          · exact absurd hm htm
        · have := hle s hsmem
          omega
      · rename_i htn
        rw [if_neg htn]

lemma epochRule_fst_le (c : Config) (n : ℕ) : (c.epochRule n).1 ≤ n := by
  have hall : ∀ t ∈ c.transitionsAt n, t.block ≤ n := fun t ht => by simpa using List.mem_takeWhile_imp ht
  unfold epochRule
  generalize c.transitionsAt n = ts at hall
  suffices h : ∀ rule : ℕ × ℕ, rule.1 ≤ n →
      (ts.foldl (fun rule t => if t.epochLength=0 then rule else (t.block,t.epochLength)) rule).1 ≤ n from
    h _ (Nat.zero_le n)
  induction ts with
  | nil => exact fun _ h => h
  | cons t ts ih =>
    intro rule hrule
    rw [List.foldl_cons]
    apply ih fun t ht => hall t (List.mem_cons_of_mem _ ht)
    split
    · exact hrule
    · exact hall t List.mem_cons_self

/-- Between a block and the last epoch block not above it, that epoch block is the last one. -/
theorem isEpochBlockNumber_of_le (hs : c.Sorted) {m : ℕ}
    (h : c.isEpochBlockNumber n = some (b,e)) (hem : e ≤ m) (hmn : m ≤ n) :
    c.isEpochBlockNumber m = some (decide (m=e),e) := by
  have hfst := c.epochRule_fst_le n
  unfold isEpochBlockNumber at h ⊢
  dsimp only at h ⊢
  split at h
  · cases h
  rename_i hlen
  simp only [Option.some.injEq,Prod.mk.injEq] at h
  have hle : (c.epochRule n).1 ≤ e := by
    have := Nat.mod_le (n-(c.epochRule n).1) (c.epochRule n).2
    omega
  have hrule : c.epochRule m = c.epochRule n := ruleAt_of_le hs hmn (by
    show (c.epochRule n).1 ≤ m
    omega)
  rw [hrule,if_neg hlen]
  generalize (c.epochRule n).1 = first at *
  generalize (c.epochRule n).2 = len at *
  have hdiv := Nat.div_add_mod (n-first) len
  have hlt := Nat.mod_lt (n-first) (Nat.pos_of_ne_zero hlen)
  have hmod : (m-first)%len = m-e := by
    rw [show m-first = m-e+len*((n-first)/len) by omega,Nat.add_mul_mod_self_left,
      Nat.mod_eq_of_lt (by omega)]
  rw [hmod]
  simp only [Option.some.injEq,Prod.mk.injEq,decide_eq_decide]
  omega

lemma isEpochBlockNumber_le (h : c.isEpochBlockNumber n = some (b,e)) : e ≤ n := by
  unfold isEpochBlockNumber at h
  dsimp only at h
  split at h
  · cases h
  · simp only [Option.some.injEq,Prod.mk.injEq] at h
    omega

lemma isEpochBlock_last (hs : c.Sorted) (h : c.isEpochBlockNumber n = some (b,e)) : c.IsEpochBlock e :=
  ⟨e,by rw [isEpochBlockNumber_of_le hs h le_rfl (isEpochBlockNumber_le h)]; simp⟩

end Config

/-- What header verification reads of a state. -/
structure StateView where
  isBlacklisted : Address → Bool
  /-- The tip of the `GovValidator` contract, if it is deployed. -/
  gasTip : Option ℕ

/-- The chain a node has, as far as header verification reads it. -/
structure ChainReader where
  config : ChainConfig
  getHeader : Hash → ℕ → Option Header
  getHeaderByNumber : ℕ → Option Header
  stateAt : ℕ → Option StateView

/-- The number before, in `uint64`. -/
def predNumber (number : ℕ) : ℕ := (number+(2^64-1))%2^64

def extractEpochInfo (h : Header) : Option (ℕ × EpochInfo) := do
  let extra ← h.extractWBFTExtra
  let info ← extra.epochInfo
  return (h.number,info)

/-- The walk from a block towards the epoch block `epochNum`, first along the given parents, the last
of which is the closest, then along the headers of the chain. -/
def findEpochHeader (chain : ChainReader) (epochNum : ℕ) : ℕ → List Header → Hash → ℕ → Option Header
  | 0, _, _, _ => none
  | fuel+1, parents, parentHash, parentNumber =>
    match parents.getLast?.or (if parents = [] then chain.getHeader parentHash parentNumber else none) with
    | none => none
    | some block =>
      if epochNum=block.number then some block
      else findEpochHeader chain epochNum fuel parents.dropLast block.parentHash (predNumber block.number)

/-- The epoch block on the branch of a block, given by its parent; numbers go down along the walk. -/
def ancestorEpochHeader (chain : ChainReader) (epochNum : ℕ) (parents : List Header)
    (parentHash : Hash) (parentNumber : ℕ) : Option Header :=
  findEpochHeader chain epochNum (parentNumber+parents.length+2) parents parentHash parentNumber

/-- The epoch info a block is under; the canonical block of the epoch number comes first. -/
def getEpochInfo (c : Config) (chain : ChainReader) (blockNumber : ℕ) (parentHash : Hash)
    (parents : List Header) : Option (ℕ × EpochInfo) := do
  let parentNumber := predNumber blockNumber
  let (_,epochNum) ← c.isEpochBlockNumber parentNumber
  match chain.getHeaderByNumber epochNum with
  | some epochHeader => extractEpochInfo epochHeader
  | none =>
    let block ← ancestorEpochHeader chain epochNum parents parentHash parentNumber
    extractEpochInfo block

def getValidators (c : Config) (chain : ChainReader) (blockNumber : ℕ) (parentHash : Hash)
    (parents : List Header) : Option ValidatorSet :=
  if blockNumber=0 then
    chain.config.anzeon.map fun anzeon =>
      .newSet anzeon.initValidators anzeon.initBLSPublicKeys c.proposerPolicy
  else
    (getEpochInfo c chain blockNumber parentHash parents).map fun (_,info) =>
      .newSet info.getValidators info.blsPublicKeys (c.getConfig blockNumber).proposerPolicy

/-- `GetValidatorsForVerifying`: the validators of a block and of its parent. -/
def getValidatorsForVerifying (c : Config) (chain : ChainReader) (header : Header)
    (parents : List Header) : Except VerifyError (ValidatorSet × ValidatorSet) :=
  if 2^64 ≤ header.number then .error .invalidBlockNumber
  else
    match getValidators c chain header.number header.parentHash parents with
    | none => .error .unknownAncestor
    | some valSet =>
      if 2 ≤ header.number then
        let parent := if parents = [] then chain.getHeader header.parentHash (header.number-1)
          else parents.getLast?
        match parent with
        | none => .error .unknownAncestor
        | some parent =>
          match getValidators c chain parent.number parent.parentHash parents.dropLast with
          | none => .error .epochInfo
          | some prevValSet => .ok (valSet,prevValSet)
      else .ok (valSet,valSet)

end StableNet.Engine
