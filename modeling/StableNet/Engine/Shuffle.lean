import StableNet.Engine.EpochInfo
import Mathlib.Data.List.Sort
import Mathlib.Data.Prod.Lex
import Mathlib.Logic.Equiv.Basic

/-! The order of the validators: a sort by power and diligence, which leaves ties open, and a shuffle that permutes
the indices. -/
namespace StableNet.Engine
open Chain Wbft Lib SwapOrNot List
variable {indices : List ℕ} {s s' : SortSlice} {mixDigest : ℕ}

namespace Shuffle

section
variable (keccak : Bytes → ℕ) (seed : Bytes) (indexCount : ℕ)

/-- The body of the loop; the sum wraps around like a `uint64`. -/
def step (round index : ℕ) : ℕ :=
  let r := shuffleRound keccak seed round
  let pivot := r.pivot%indexCount
  let flip := (pivot+indexCount+(2^64-index))%2^64%indexCount
  let position := if index<flip then flip else index
  if r.bit position then flip else index

def ascending : ℕ → ℕ → ℕ → ℕ
  | 0, _, index => index
  | left+1, round, index => ascending left (round+1) (step keccak seed indexCount round index)

def descending : ℕ → ℕ → ℕ
  | 0, index => index
  | round+1, index => descending round (step keccak seed indexCount round index)

end

/-- Where an index goes, or where it comes from if `shuffle` is not set. -/
def computeShuffledIndex (keccak : Bytes → ℕ) (index indexCount seed : ℕ) (shuffle : Bool) : Except EpochError ℕ :=
  let seed := BigEndian.encode 32 seed
  if indexCount ≤ index then .error .shuffle
  else if shuffle then .ok (ascending keccak seed indexCount shuffleRoundCount 0 index)
  else .ok (descending keccak seed indexCount shuffleRoundCount index)

section
variable {keccak : Bytes → ℕ} {seed : Bytes} {n index : ℕ}

theorem step_eq (hn : n<2^63) (h : index<n) (round : ℕ) :
    step keccak seed n round index = (shuffleRound keccak seed round).apply n index := by
  have hpivot := Nat.mod_lt (shuffleRound keccak seed round).pivot (by omega : n > 0)
  have hflip : ((shuffleRound keccak seed round).pivot%n+n+(2^64-index))%2^64 =
      (shuffleRound keccak seed round).pivot%n+n-index := by
    rw [show (shuffleRound keccak seed round).pivot%n+n+(2^64-index) =
      (shuffleRound keccak seed round).pivot%n+n-index+2^64 by omega,Nat.add_mod_right,
      Nat.mod_eq_of_lt (by omega)]
  unfold step SwapOrNot.Round.apply SwapOrNot.flip
  dsimp only
  rw [hflip,max_def_lt]

lemma ascending_eq (hn : n<2^63) (h : index<n) (left round : ℕ) : ascending keccak seed n left round index =
      SwapOrNot.shuffle n ((List.range' round left).map (shuffleRound keccak seed)) index := by
  induction left generalizing round index with
  | zero => rfl
  | succ left ih =>
    have hlt := SwapOrNot.Round.apply_lt (shuffleRound keccak seed round) h
    rw [ascending,step_eq hn h,ih hlt]
    rfl

lemma descending_eq (hn : n<2^63) (h : index<n) (round : ℕ) : descending keccak seed n round index =
      SwapOrNot.shuffle n ((List.range round).map (shuffleRound keccak seed)).reverse index := by
  induction round generalizing index with
  | zero => rfl
  | succ round ih =>
    have hlt := SwapOrNot.Round.apply_lt (shuffleRound keccak seed round) h
    rw [descending,step_eq hn h,ih hlt,range_succ,map_append,reverse_append]
    rfl

end

end Shuffle

def shuffleRounds (keccak : Bytes → ℕ) (seed : ℕ) : List SwapOrNot.Round :=
  (List.range shuffleRoundCount).map (shuffleRound keccak (BigEndian.encode 32 seed))

section
variable {keccak : Bytes → ℕ} {index n seed : ℕ}

lemma Shuffle.computeShuffledIndex_true (hn : n<2^63) (h : index<n) :
    Shuffle.computeShuffledIndex keccak index n seed true =
    .ok (SwapOrNot.shuffle n (shuffleRounds keccak seed) index) := by
  simp only [Shuffle.computeShuffledIndex,if_neg (Nat.not_le.mpr h),if_true,Shuffle.ascending_eq hn h,shuffleRounds,
    range_eq_range']

lemma Shuffle.computeShuffledIndex_false (hn : n<2^63) (h : index<n) :
    Shuffle.computeShuffledIndex keccak index n seed false =
      .ok (SwapOrNot.shuffle n (shuffleRounds keccak seed).reverse index) := by
  simp only [Shuffle.computeShuffledIndex,if_neg (Nat.not_le.mpr h),Bool.false_eq_true,if_false,
    Shuffle.descending_eq hn h,shuffleRounds]

/-- The shuffle that `decideValidators` is written with is that of the loop. -/
theorem computeShuffledIndex_eq (hn : n<2^63) :
    computeShuffledIndex keccak index n seed = Shuffle.computeShuffledIndex keccak index n seed true := by
  unfold computeShuffledIndex
  split
  · simp [Shuffle.computeShuffledIndex, *]
  · rw [Shuffle.computeShuffledIndex_true hn (by omega),shuffleRounds]

end

section
variable {keccak : Bytes → ℕ} {stakers : List PoweredCandidate} {vs : List ℕ}

lemma sortCandidates_perm (s : SortSlice) (stakers : List PoweredCandidate) :
    (sortCandidates s stakers).Perm (List.range stakers.length) := s.perm _ _

lemma length_sortCandidates (s : SortSlice) (stakers : List PoweredCandidate) :
    (sortCandidates s stakers).length = stakers.length := by
  simpa using (sortCandidates_perm s stakers).length_eq

/-- The candidate the shuffle puts at a place. -/
def validatorAt (keccak : Bytes → ℕ) (s : SortSlice) (mixDigest : ℕ) (stakers : List PoweredCandidate) (i : ℕ) : ℕ :=
  (sortCandidates s stakers).getD (SwapOrNot.shuffle stakers.length (shuffleRounds keccak mixDigest) i) 0%2^32

lemma decideValidators_eq (keccak : Bytes → ℕ) (s : SortSlice) (mixDigest : ℕ) (stakers : List PoweredCandidate) :
    decideValidators keccak s mixDigest stakers =
      .ok ((List.range stakers.length).map (validatorAt keccak s mixDigest stakers)) := by
  have hlen := length_sortCandidates s stakers
  unfold decideValidators
  dsimp only
  rw [mapM_eq_ok,forall₂_map_right_iff,hlen,forall₂_same]
  intro i hi
  have hi := mem_range.mp hi
  have hlt : SwapOrNot.shuffle stakers.length (shuffleRounds keccak mixDigest) i<(sortCandidates s stakers).length :=
    (shuffle_lt _ hi).trans_eq hlen.symm
  refine bind_eq_ok.mpr ⟨_,if_neg (Nat.not_le.mpr hi),bind_eq_ok.mpr ⟨_,orError_eq_ok.mpr
    (List.getElem?_eq_getElem hlt),?_⟩⟩
  rw [validatorAt,getD_eq_getElem?_getD,List.getElem?_eq_getElem hlt]
  rfl

theorem map_validatorAt_perm (keccak : Bytes → ℕ) (s : SortSlice) (mixDigest : ℕ) (stakers : List PoweredCandidate) :
    ((List.range stakers.length).map (validatorAt keccak s mixDigest stakers)).Perm
      ((List.range stakers.length).map (·%2^32)) := by
  have hlen := length_sortCandidates s stakers
  have hread : (List.range stakers.length).map ((sortCandidates s stakers).getD · 0) = sortCandidates s stakers := by
    refine ext_getElem (by simp [hlen]) fun i hi _ => ?_
    have hi : i<(sortCandidates s stakers).length := by simpa [hlen] using hi
    rw [getElem_map,getElem_range,getD_eq_getElem?_getD,List.getElem?_eq_getElem hi,Option.getD_some]
  have hshuffle := (perm_map_shuffle stakers.length (shuffleRounds keccak mixDigest)).map
    ((sortCandidates s stakers).getD · 0)
  rw [hread,map_map] at hshuffle
  have := (hshuffle.trans (sortCandidates_perm s stakers)).map (·%2^32)
  rwa [map_map] at this

theorem perm_range_iff : decideValidators keccak s mixDigest stakers = .ok vs →
    (vs.Perm (List.range stakers.length) ↔ stakers.length ≤ 2^32) := by
  rw [decideValidators_eq]
  rintro ⟨⟩
  have hperm := map_validatorAt_perm keccak s mixDigest stakers
  constructor
  · intro h
    by_contra hlen
    -- the index 2 ^ 32 is cut off
    have hmem := (hperm.symm.trans h).mem_iff.mpr (mem_range.mpr (Nat.not_le.mp hlen))
    obtain ⟨i,_,hi⟩ := mem_map.mp hmem
    exact (Nat.mod_lt i (by decide : 2^32 > 0)).ne hi
  · intro hlen
    refine hperm.trans (List.Perm.of_eq ?_)
    refine (map_congr_left fun i hi => Nat.mod_eq_of_lt ?_).trans (map_id _)
    have := mem_range.mp hi
    omega

lemma decideValidators_ok (hfits : stakers.length ≤ 2^32)
    (h : decideValidators keccak s mixDigest stakers = .ok vs) : vs.Nodup ∧ ∀ v ∈ vs, v<stakers.length := by
  have hperm := (perm_range_iff h).mpr hfits
  exact ⟨hperm.nodup_iff.mpr nodup_range,fun v hv => mem_range.mp (hperm.mem_iff.mp hv)⟩

end

/-- The shuffle is a permutation whose reverse is its inverse, and the validators are all candidates, each
of them once, if and only if their indices fit 32 bits. -/
theorem shuffle_bijective (keccak : Bytes → ℕ) (seed : ℕ) : (∀ n, 0<n → n<2^63 → ∃ f g : ℕ → ℕ,
      (∀ i<n, Shuffle.computeShuffledIndex keccak i n seed true = .ok (f i)) ∧
      (∀ i<n, Shuffle.computeShuffledIndex keccak i n seed false = .ok (g i)) ∧
      Set.BijOn f {i | i<n} {i | i<n} ∧ Set.InvOn g f {i | i<n} {i | i<n}) ∧
    ∀ (s : SortSlice) (stakers : List PoweredCandidate), ∃ vs, decideValidators keccak s seed stakers = .ok vs ∧
      (vs.Perm (List.range stakers.length) ↔ stakers.length ≤ 2^32) := by
  constructor
  · intro n _ hn
    have hinv : Set.InvOn (SwapOrNot.shuffle n (shuffleRounds keccak seed).reverse)
        (SwapOrNot.shuffle n (shuffleRounds keccak seed)) {i | i<n} {i | i<n} :=
      ⟨fun _ hi => SwapOrNot.shuffle_reverse_shuffle _ hi,fun _ hi => SwapOrNot.shuffle_shuffle_reverse _ hi⟩
    exact ⟨_,_,fun _ hi => Shuffle.computeShuffledIndex_true hn hi,
      fun _ hi => Shuffle.computeShuffledIndex_false hn hi,
      hinv.bijOn (fun _ hi => SwapOrNot.shuffle_lt _ hi) fun _ hi => SwapOrNot.shuffle_lt _ hi,hinv⟩
  · intro s stakers
    exact ⟨_,decideValidators_eq keccak s seed stakers,perm_range_iff (decideValidators_eq keccak s seed stakers)⟩

namespace ManyCandidates

def sorter : SortSlice := ⟨fun _ xs => xs,fun _ _ => List.Perm.refl _⟩

/-- One candidate more than 32 bits can number. -/
def stakers : List PoweredCandidate := List.replicate (2^32+1) ⟨0,0,1⟩

/-- The last candidate is taken for the first one. -/
theorem index_cut_off : ∃ vs, decideValidators (fun _ => 0) sorter 0 stakers = .ok vs ∧
    ¬ vs.Perm (List.range stakers.length) := by
  refine ⟨_,decideValidators_eq _ _ _ _,fun h => ?_⟩
  have hle := (perm_range_iff (decideValidators_eq _ _ _ _)).mp h
  rw [stakers,List.length_replicate] at hle
  omega

end ManyCandidates

/-- More power comes first, then more diligence. -/
def less (candidates : List PoweredCandidate) (i j : ℕ) : Bool :=
  match candidates[i]?, candidates[j]? with
  | some ci, some cj => if ci.power≠cj.power then cj.power<ci.power else cj.diligence<ci.diligence
  | _, _ => false

/-- The result is in order: no candidate comes after one that it should come before. -/
def Sorts (s : SortSlice) (candidates : List PoweredCandidate) : Prop :=
  (sortCandidates s candidates).Pairwise fun i j => less candidates j i=false

/-- Candidates with the same power and diligence have the same 32-bit index: with up to 2³² candidates,
no two of them are tied. -/
def Untied (candidates : List PoweredCandidate) : Prop :=
  ∀ i j ci cj, candidates[i]? = some ci → candidates[j]? = some cj → ci.power=cj.power →
    ci.diligence=cj.diligence → i%2^32 = j%2^32

def rank (candidates : List PoweredCandidate) (i : ℕ) : ℕ ×ₗ ℕ :=
  toLex ((candidates[i]?.map (·.power)).getD 0,(candidates[i]?.map (·.diligence)).getD 0)

section
variable {candidates : List PoweredCandidate} {i j : ℕ}

lemma less_eq_false_iff (hi : i<candidates.length) (hj : j<candidates.length) :
    less candidates j i=false ↔ rank candidates j ≤ rank candidates i := by
  simp only [less,rank,List.getElem?_eq_getElem hi,List.getElem?_eq_getElem hj,Option.map_some,Option.getD_some,
    Prod.Lex.toLex_le_toLex]
  split
  · simp only [decide_eq_false_iff_not]
    omega
  · simp only [decide_eq_false_iff_not]
    omega

lemma rank_eq_iff (hi : i<candidates.length) (hj : j<candidates.length) : rank candidates i = rank candidates j ↔
      candidates[i].power = candidates[j].power ∧ candidates[i].diligence = candidates[j].diligence := by
  simp [rank,hi,hj]

theorem pairwise_less_iff (h : indices.Perm (List.range candidates.length)) :
    (indices.Pairwise fun i j => less candidates j i=false) ↔ (indices.map (rank candidates)).Pairwise (· ≥ ·) := by
  have hlt {i : ℕ} (hi : i ∈ indices) : i<candidates.length := mem_range.mp (h.mem_iff.mp hi)
  rw [pairwise_map]
  exact List.Pairwise.iff_of_mem fun hi hj => less_eq_false_iff (hlt hi) (hlt hj)

theorem rank_getElem?_eq (hs : Sorts s candidates) (hs' : Sorts s' candidates) (i : ℕ) :
    ((sortCandidates s candidates).map (rank candidates))[i]? =
      ((sortCandidates s' candidates).map (rank candidates))[i]? := by
  have h := (pairwise_less_iff (sortCandidates_perm s candidates)).mp hs
  have h' := (pairwise_less_iff (sortCandidates_perm s' candidates)).mp hs'
  have hperm := (sortCandidates_perm s candidates).trans (sortCandidates_perm s' candidates).symm
  rw [(hperm.map (rank candidates)).eq_of_pairwise' h h']

def SortSlice.returning (indices : List ℕ) (n : ℕ) (h : indices.Perm (List.range n)) : SortSlice where
  sort _ xs := if xs = List.range n then indices else xs
  perm _ xs := by
    split
    · rename_i hxs
      rw [hxs]
      exact h
    · exact List.Perm.refl xs

lemma sortCandidates_returning (h : indices.Perm (List.range candidates.length)) :
    sortCandidates (.returning indices candidates.length h) candidates = indices := if_pos rfl

lemma sorts_returning (h : indices.Perm (List.range candidates.length))
    (hsorted : (indices.map (rank candidates)).Pairwise (· ≥ ·)) :
    Sorts (.returning indices candidates.length h) candidates := by
  unfold Sorts
  rw [sortCandidates_returning,pairwise_less_iff h]
  exact hsorted

lemma decideValidators_eq_iff {keccak : Bytes → ℕ} :
    decideValidators keccak s mixDigest candidates = decideValidators keccak s' mixDigest candidates ↔
      ∀ k<candidates.length,
        (sortCandidates s candidates).getD k 0%2^32 = (sortCandidates s' candidates).getD k 0%2^32 := by
  rw [decideValidators_eq,decideValidators_eq,Except.ok.injEq,map_inj_left]
  constructor
  · intro h k hk
    have hread := h _ (mem_range.mpr (shuffle_lt (shuffleRounds keccak mixDigest).reverse hk))
    rwa [validatorAt,validatorAt,shuffle_shuffle_reverse _ hk] at hread
  · exact fun h i hi => h _ (shuffle_lt _ (mem_range.mp hi))

def inOrder (candidates : List PoweredCandidate) : List ℕ :=
  (List.range candidates.length).insertionSort fun i j => rank candidates i ≥ rank candidates j

lemma inOrder_perm (candidates : List PoweredCandidate) :
    (inOrder candidates).Perm (List.range candidates.length) := perm_insertionSort _ _

lemma pairwise_inOrder (candidates : List PoweredCandidate) :
    ((inOrder candidates).map (rank candidates)).Pairwise (· ≥ ·) := by
  have : Std.Total fun i j => rank candidates i ≥ rank candidates j := ⟨fun i j => le_total _ _⟩
  have : IsTrans ℕ fun i j => rank candidates i ≥ rank candidates j := ⟨fun _ _ _ hij hjk => le_trans hjk hij⟩
  rw [pairwise_map]
  exact pairwise_insertionSort _ _

lemma swap_perm (hi : i<candidates.length) (hj : j<candidates.length) :
    ((inOrder candidates).map (Equiv.swap i j)).Perm (List.range candidates.length) := by
  refine ((inOrder_perm candidates).map _).trans ?_
  refine ((nodup_range.map (Equiv.injective _)).subperm fun x hx => ?_).perm_of_length_le (by simp)
  obtain ⟨k,hk,rfl⟩ := mem_map.mp hx
  rw [Equiv.swap_apply_def]
  split
  · exact mem_range.mpr hj
  · split
    · exact mem_range.mpr hi
    · exact hk

lemma rank_swap (h : rank candidates i = rank candidates j) (k : ℕ) :
    rank candidates (Equiv.swap i j k) = rank candidates k := by
  rw [Equiv.swap_apply_def]
  split
  · rename_i hk
    rw [hk,h]
  · split
    · rename_i hk
      rw [hk,h]
    · rfl

end

/-- Without ties, all sorts lead to the same validators. -/
theorem decideValidators_eq_of_untied {keccak : Bytes → ℕ} {candidates : List PoweredCandidate}
    (h : Untied candidates) (hs : Sorts s candidates) (hs' : Sorts s' candidates) :
    decideValidators keccak s mixDigest candidates = decideValidators keccak s' mixDigest candidates := by
  rw [decideValidators_eq_iff]
  intro k hk
  have hget (s : SortSlice) : ∃ i, (sortCandidates s candidates)[k]? = some i ∧ i<candidates.length := by
    have hk : k<(sortCandidates s candidates).length := by rwa [length_sortCandidates]
    exact ⟨_,List.getElem?_eq_getElem hk,mem_range.mp ((sortCandidates_perm s candidates).mem_iff.mp
      (getElem_mem hk))⟩
  obtain ⟨i,hi,hilt⟩ := hget s
  obtain ⟨j,hj,hjlt⟩ := hget s'
  have hrank := rank_getElem?_eq hs hs' k
  rw [List.getElem?_map,List.getElem?_map,hi,hj] at hrank
  obtain ⟨hpower,hdiligence⟩ := (rank_eq_iff hilt hjlt).mp (Option.some.inj hrank)
  rw [getD_eq_getElem?_getD,getD_eq_getElem?_getD,hi,hj]
  exact h i j _ _ (List.getElem?_eq_getElem hilt) (List.getElem?_eq_getElem hjlt) hpower hdiligence

/-- All correct sorts lead to the same validators if and only if no candidates are tied. -/
theorem validators_sort_independent (keccak : Bytes → ℕ) (mixDigest : ℕ) (candidates : List PoweredCandidate) :
    (∀ s s' : SortSlice, Sorts s candidates → Sorts s' candidates →
      decideValidators keccak s mixDigest candidates = decideValidators keccak s' mixDigest candidates) ↔
    Untied candidates := by
  constructor
  · intro h i j ci cj hci hcj hpower hdiligence
    obtain ⟨hi,rfl⟩ := List.getElem?_eq_some_iff.mp hci
    obtain ⟨hj,rfl⟩ := List.getElem?_eq_some_iff.mp hcj
    have hrank := (rank_eq_iff hi hj).mpr ⟨hpower,hdiligence⟩
    -- an order of the candidates, and the same with the tied ones exchanged
    have hsorted := pairwise_inOrder candidates
    have hsorted' : (((inOrder candidates).map (Equiv.swap i j)).map (rank candidates)).Pairwise (· ≥ ·) := by
      rw [List.map_map,show rank candidates ∘ Equiv.swap i j = rank candidates from funext (rank_swap hrank)]
      exact hsorted
    have hsame := decideValidators_eq_iff.mp (h _ _ (sorts_returning (inOrder_perm candidates) hsorted)
      (sorts_returning (swap_perm hi hj) hsorted'))
    rw [sortCandidates_returning,sortCandidates_returning] at hsame
    obtain ⟨k,hk⟩ := List.mem_iff_getElem?.mp ((inOrder_perm candidates).mem_iff.mpr (List.mem_range.mpr hi))
    have hlt : k<candidates.length := by
      have := (List.getElem?_eq_some_iff.mp hk).1
      rwa [(inOrder_perm candidates).length_eq,List.length_range] at this
    simpa [List.getD_eq_getElem?_getD,hk] using hsame k hlt
  · exact fun h s s' hs hs' => decideValidators_eq_of_untied h hs hs'

theorem newEpochInfo_sort_independent {crypto : Crypto} {ctx : EpochContext} {gov : GovView}
    (h : ∀ candidates, gov.candidates.mapM ctx.newCandidate = .ok candidates →
      let stakers := candidates.map fun x => ⟨x.addr,x.diligence,1⟩
      Untied stakers ∧ Sorts s stakers ∧ Sorts s' stakers) :
    newEpochInfo crypto s ctx mixDigest gov = newEpochInfo crypto s' ctx mixDigest gov := by
  unfold newEpochInfo
  cases hcandidates : gov.candidates.mapM ctx.newCandidate with
  | error e => rfl
  | ok candidates =>
    obtain ⟨huntied,hs,hs'⟩ := h candidates hcandidates
    rw [ok_bind,ok_bind,decideValidators_eq_of_untied huntied hs hs']

namespace TiedCandidates

/-- Two new candidates of the contract. -/
def gov : GovView := ⟨[1,2],by decide,by decide,fun a => some a.toNat⟩

/-- An epoch in which neither of them was a candidate, so that both get the default diligence. -/
def context : EpochContext := ⟨⟨[],[],[]⟩,[],.empty,fun _ => 0⟩

def stakers : List PoweredCandidate := [⟨1,defaultDiligence,1⟩,⟨2,defaultDiligence,1⟩]

def stable : SortSlice := .returning [0,1] 2 (by decide)

def unstable : SortSlice := .returning [1,0] 2 (by decide)

def crypto : Crypto := ⟨fun _ _ _ => true,fun _ _ _ => true,fun _ => 0⟩

def infoWith (validators : List ℕ) : EpochInfo :=
  ⟨[⟨1,defaultDiligence⟩,⟨2,defaultDiligence⟩],validators,validators.map (·+1)⟩

/-- Both orders of the tied candidates are in order, and two nodes that sort in different ways decide on
different validators and build different epoch infos. -/
theorem validators_differ : Sorts stable stakers ∧ Sorts unstable stakers ∧
    decideValidators crypto.keccak stable 0 stakers = .ok [0,1] ∧
    decideValidators crypto.keccak unstable 0 stakers = .ok [1,0] ∧
    newEpochInfo crypto stable context 0 gov = .ok (infoWith [0,1]) ∧
    newEpochInfo crypto unstable context 0 gov = .ok (infoWith [1,0]) := by
  unfold Sorts
  decide +kernel

end TiedCandidates

end StableNet.Engine
