import StableNet.Engine.Epoch

/-! Where the epoch info of a block is looked up: a canonical block of the epoch number is preferred to the one of the
branch. -/
namespace StableNet.Engine
open Chain Wbft

/-- The last epoch block is the greatest one that is not above the block. -/
theorem Config.isGreatest_epoch {c : Config} (hs : c.Sorted) {b : Bool} {e n : ℕ}
    (h : c.isEpochBlockNumber n = some (b,e)) : IsGreatest {m | c.IsEpochBlock m ∧ m ≤ n} e := by
  refine ⟨⟨isEpochBlock_last hs h,isEpochBlockNumber_le h⟩,?_⟩
  rintro m ⟨⟨last,hm⟩,hmn⟩
  by_contra hlt
  rw [isEpochBlockNumber_of_le hs h (by omega) hmn] at hm
  simp only [Option.some.injEq,Prod.mk.injEq,decide_eq_true_eq] at hm
  omega

/-- A branch of the block tree below a block, which is given by its number and the hash of its parent. The
last blocks of the branch are the given parents, the others down to `epochNum` are stored. -/
structure Branch (chain : ChainReader) (B : ℕ → Header) (epochNum blockNumber : ℕ) (parentHash : Hash)
    (parents : List Header) : Prop where
  number : ∀ k<blockNumber, (B k).number = k
  linked : ∀ k, k+1<blockNumber → (B (k+1)).parentHash = (B k).hash
  tip : parentHash = (B (blockNumber-1)).hash
  given : ∃ k ≤ blockNumber, parents = (List.range' k (blockNumber-k)).map B ∧
    ∀ j, epochNum ≤ j → j<k → chain.getHeader (B j).hash j = some (B j)

namespace Branch
variable {chain : ChainReader} {B : ℕ → Header} {epochNum n : ℕ} {parentHash : Hash} {parents : List Header}

lemma predNumber_eq (hn : 0<n) (hlt : n<2^64) : predNumber n = n-1 := by
  unfold predNumber
  rw [show n+(2^64-1) = n-1+2^64 by omega,Nat.add_mod_right,Nat.mod_eq_of_lt (by omega)]

lemma first (h : Branch chain B epochNum n parentHash parents) (hn : 0<n) (he : epochNum<n) :
    parents.getLast?.or (if parents = [] then chain.getHeader parentHash (n-1) else none) = some (B (n-1)) := by
  obtain ⟨k,hk,hparents,hstored⟩ := h.given
  rcases Nat.lt_or_ge k n with hlt | hge
  · have hlast : parents.getLast? = some (B (n-1)) := by
      rw [hparents,List.getLast?_map,show n-k = n-k-1+1 by omega,List.range'_concat,List.getLast?_concat,
        Option.map_some]
      congr 2
      omega
    rw [hlast]
    rfl
  · obtain rfl : k=n := by omega
    have hnil : parents = [] := by simpa using hparents
    rw [hnil,if_pos rfl,h.tip,hstored (k-1) (by omega) (by omega)]
    rfl

section
variable (h : Branch chain B epochNum (n+1) parentHash parents)
include h

lemma rest (hn : 0<n) : Branch chain B epochNum n (B n).parentHash parents.dropLast := by
  obtain ⟨k,hk,hparents,hstored⟩ := h.given
  refine ⟨fun j hj => h.number j (by omega),fun j hj => h.linked j (by omega),?_,?_⟩
  · obtain ⟨m,rfl⟩ := Nat.exists_eq_succ_of_ne_zero hn.ne'
    exact h.linked m (by omega)
  · rcases Nat.lt_or_ge n k with hlt | hge
    · obtain rfl : k = n+1 := by omega
      exact ⟨n,le_rfl,by simp [hparents],fun j he hj => hstored j he (by omega)⟩
    · refine ⟨k,hge,?_,hstored⟩
      rw [hparents,show n+1-k = n-k+1 by omega,List.range'_concat,List.map_append,List.map_singleton,
        List.dropLast_concat]

lemma findEpochHeader_succ (he : epochNum ≤ n) (fuel : ℕ) :
    findEpochHeader chain epochNum (fuel+1) parents parentHash n = if epochNum=n then some (B n)
      else findEpochHeader chain epochNum fuel parents.dropLast (B n).parentHash (predNumber n) := by
  rw [findEpochHeader,show n = n+1-1 from rfl,h.first (by omega) (by omega),Nat.add_sub_cancel]
  dsimp only
  rw [h.number n (by omega)]

lemma findEpochHeader_eq (he : epochNum ≤ n) (hn : n<2^64) {fuel : ℕ} (hfuel : n-epochNum<fuel) :
    findEpochHeader chain epochNum fuel parents parentHash n = some (B epochNum) := by
  obtain ⟨fuel,rfl⟩ := Nat.exists_eq_succ_of_ne_zero (Nat.ne_of_gt (Nat.zero_lt_of_lt hfuel))
  induction n generalizing fuel parents parentHash with
  | zero =>
    obtain rfl : epochNum=0 := by omega
    rw [h.findEpochHeader_succ he,if_pos rfl]
  | succ n ih =>
    rw [h.findEpochHeader_succ he]
    split
    · rw [‹epochNum = n+1›]
    · obtain ⟨fuel,rfl⟩ := Nat.exists_eq_succ_of_ne_zero (show fuel≠0 by omega)
      rw [predNumber_eq (by omega) hn,Nat.add_sub_cancel]
      exact ih (h.rest (by omega)) (by omega) (by omega) fuel (by omega)

end

end Branch

/-- The lookup finds the epoch info of the last epoch block of the branch if and only if the canonical
block of its number, if there is one, has the same epoch info. -/
theorem epoch_lookup {c : Config} {chain : ChainReader} {B : ℕ → Header} {b : Bool} {epochNum blockNumber : ℕ}
    {parentHash : Hash} {parents : List Header} (hs : c.Sorted) (hpos : 0<blockNumber) (hlt : blockNumber<2^64)
    (hepoch : c.isEpochBlockNumber (blockNumber-1) = some (b,epochNum))
    (hbranch : Branch chain B epochNum blockNumber parentHash parents) :
    IsGreatest {m | c.IsEpochBlock m ∧ m ≤ blockNumber-1} epochNum ∧
    (getEpochInfo c chain blockNumber parentHash parents = extractEpochInfo (B epochNum) ↔
      ∀ header, chain.getHeaderByNumber epochNum = some header →
        extractEpochInfo header = extractEpochInfo (B epochNum)) := by
  refine ⟨Config.isGreatest_epoch hs hepoch,?_⟩
  have hle := Config.isEpochBlockNumber_le hepoch
  obtain ⟨n,rfl⟩ := Nat.exists_eq_succ_of_ne_zero hpos.ne'
  rw [Nat.succ_eq_add_one,Nat.add_sub_cancel] at hepoch hle
  have hpred : predNumber (n+1) = n := Branch.predNumber_eq hpos hlt
  simp only [getEpochInfo,hpred,hepoch,bind,Option.bind_some]
  cases hcanonical : chain.getHeaderByNumber epochNum with
  | some header => simp
  | none =>
    have hfind : ancestorEpochHeader chain epochNum parents parentHash n = some (B epochNum) :=
      hbranch.findEpochHeader_eq hle (by omega) (by omega)
    simp [hfind]

namespace SideBranch

def info (validator : Address) : EpochInfo := ⟨[⟨validator,1⟩],[0],[1]⟩

def header (number : ℕ) (parentHash : Hash) (epochInfo : Option EpochInfo) : Header :=
  { ThreeBlocks.header number 0 0 0 with
    coinbase := 1, baseFee := none, parentHash, extra := .wbft ⟨[],[],0,none,none,0,none,none,some 1,epochInfo⟩ }

def genesis : Header := header 0 .zero (some (info 1))

def block1 : Header := header 1 genesis.hash none

def block2 (validator : Address) : Header := header 2 block1.hash (some (info validator))

def branch (validator : Address) : ℕ → Header
  | 0 => genesis
  | 1 => block1
  | _ => block2 validator

def config : Config := ⟨1,.roundRobin,2,0,[]⟩

/-- Two epoch blocks of number 2 are stored, and the one with validator 2 is canonical. -/
def chain : ChainReader where
  config := ⟨some 0,none,none,none⟩
  getHeader hash number := [genesis,block1,block2 2,block2 3].find? fun h => h.hash=hash ∧ h.number=number
  getHeaderByNumber number := [genesis,block1,block2 2].find? fun h => h.number=number
  stateAt _ := none

lemma branch_below (validator : Address) (h : validator=2 ∨ validator=3) :
    Branch chain (branch validator) 2 3 (block2 validator).hash [] where
  number k hk :=
    match k, hk with
    | 0, _ => rfl
    | 1, _ => rfl
    | 2, _ => rfl
  linked k hk :=
    match k, hk with
    | 0, _ => rfl
    | 1, _ => rfl
  tip := rfl
  given := by
    refine ⟨3,le_rfl,rfl,fun j h2 h3 => ?_⟩
    obtain rfl : j=2 := by omega
    obtain rfl | rfl := h
    · decide +kernel
    · decide +kernel

/-- On the canonical branch the lookup is right. -/
theorem canonical_lookup : getEpochInfo config chain 3 (block2 2).hash [] = some (2,info 2) :=
  (epoch_lookup (c := config) (b := true) List.Pairwise.nil (by decide) (by decide) (by decide)
    (branch_below 2 (.inl rfl))).2.mpr fun header hheader => by
      have hcanonical : chain.getHeaderByNumber 2 = some (block2 2) := by decide +kernel
      rw [Option.some.inj (hheader.symm.trans hcanonical)]
      rfl

/-- A block on the side branch is taken to be under the epoch info of the canonical branch. -/
theorem side_branch_lookup : config.Sorted ∧ Branch chain (branch 3) 2 3 (block2 3).hash [] ∧
    config.isEpochBlockNumber 2 = some (true,2) ∧ extractEpochInfo (branch 3 2) = some (2,info 3) ∧
    getEpochInfo config chain 3 (block2 3).hash [] = some (2,info 2) :=
  ⟨List.Pairwise.nil,branch_below 3 (.inr rfl),by decide,by decide +kernel,by decide +kernel⟩

end SideBranch

end StableNet.Engine
