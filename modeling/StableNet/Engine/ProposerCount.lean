import Mathlib.Data.List.Rotate
import StableNet.Engine.Diligence

/-! Counting the turns of the proposers. From any last proposer, the rounds of one cycle give every validator a turn.
-/
namespace StableNet.Wbft.ValidatorSet
open Chain

def turn (v : ValidatorSet) (lastProposer : Address) (round : ℕ) : Option Address :=
  (v.calcProposer lastProposer round).proposer.map Validator.address

/-- The rounds that pass before it is the turn of a proposer. -/
def roundsTo (v : ValidatorSet) (lastProposer proposer : Address) : ℕ :=
  (List.range v.size).findIdx fun round => v.turn lastProposer round = some proposer

/-- The validator of round 0, counted from the beginning of the list. -/
def firstTurn (v : ValidatorSet) (lastProposer : Address) : ℕ :=
  if lastProposer=0 then 0
  else (v.indexOf lastProposer).getD 0+match v.policy with
    | .roundRobin => 1
    | .sticky => 0

section
variable {v : ValidatorSet} {last p : Address}

lemma firstTurn_le (v : ValidatorSet) (last : Address) (hpos : 0<v.size) : v.firstTurn last ≤ v.size := by
  have hindex : (v.indexOf last).getD 0<v.size := by
    cases h : v.indexOf last with
    | none => exact hpos
    | some i =>
      obtain ⟨hi,_⟩ := List.findIdx?_eq_some_iff_getElem.mp h
      exact hi
  unfold firstTurn
  split
  · exact Nat.zero_le _
  · split <;> omega

theorem turn_eq (hsize : v.size<2^63) {round : ℕ} (hround : round<v.size) :
    v.turn last round = v.addressList[(v.firstTurn last+round)%v.size]? := by
  have hle := firstTurn_le v last (by omega)
  unfold turn calcProposer firstTurn addressList at *
  rw [List.getElem?_map]
  congr 1
  cases hp : v.policy with
  | roundRobin =>
    simp only [hp,roundRobinProposer,calcSeed,getByIndex] at hle ⊢
    split at hle
    · rw [if_pos ‹_›,if_pos ‹_›,Nat.zero_add]
    · rw [if_neg ‹_›,if_neg ‹_›,Nat.mod_eq_of_lt (show (v.indexOf last).getD 0+round<2^64 by omega),
        Nat.mod_eq_of_lt (show (v.indexOf last).getD 0+round+1<2^64 by omega),Nat.add_right_comm]
  | sticky =>
    simp only [hp,stickyProposer,calcSeed,getByIndex] at hle ⊢
    split at hle
    · rw [if_pos ‹_›,if_pos ‹_›,Nat.zero_add]
    · rw [if_neg ‹_›,if_neg ‹_›,Nat.mod_eq_of_lt (show (v.indexOf last).getD 0+round<2^64 by omega),Nat.add_zero]

lemma turn_eq_rotate (hsize : v.size<2^63) {round : ℕ} (hround : round<v.size) :
    v.turn last round = (v.addressList.rotate (v.firstTurn last))[round]? := by
  have hlength : v.addressList.length=v.size := List.length_map _
  rw [turn_eq hsize hround,List.getElem?_rotate (hlength ▸ hround),hlength,Nat.add_comm]

lemma exists_turn (last : Address) (hsize : v.size<2^63) (hp : p ∈ v.addressList) :
    ∃ round<v.size, v.turn last round = some p := by
  obtain ⟨j,hj⟩ := List.mem_iff_getElem?.mp hp
  have hlt : j<v.size := by simpa [addressList,size] using (List.getElem?_eq_some_iff.mp hj).1
  have hle := firstTurn_le v last (by omega)
  -- the validator is before or behind the one of round 0
  rcases Nat.lt_or_ge j (v.firstTurn last) with h | h
  · refine ⟨j+v.size-v.firstTurn last,by omega,?_⟩
    rw [turn_eq hsize (by omega),show v.firstTurn last+(j+v.size-v.firstTurn last) = j+v.size by omega,
      Nat.add_mod_right,Nat.mod_eq_of_lt hlt,hj]
  · refine ⟨j-v.firstTurn last,by omega,?_⟩
    rw [turn_eq hsize (by omega),show v.firstTurn last+(j-v.firstTurn last) = j by omega,Nat.mod_eq_of_lt hlt,hj]

/-- It is the proposer's turn after `roundsTo` rounds, and not before. -/
theorem roundsTo_spec (last : Address) (hsize : v.size<2^63) (hp : p ∈ v.addressList) :
    v.roundsTo last p<v.size ∧ v.turn last (v.roundsTo last p) = some p ∧
      ∀ round<v.roundsTo last p, v.turn last round ≠ some p := by
  obtain ⟨round,hround,hturn⟩ := exists_turn last hsize hp
  unfold roundsTo
  have hlt :
      (List.range v.size).findIdx (fun round => decide (v.turn last round = some p))<(List.range v.size).length :=
    List.findIdx_lt_length_of_exists ⟨round,List.mem_range.mpr hround,by simpa using hturn⟩
  have hget := List.findIdx_getElem (w := hlt)
  simp only [List.getElem_range,decide_eq_true_eq] at hget
  refine ⟨by simpa using hlt,hget,fun r hr => ?_⟩
  simpa using List.not_of_lt_findIdx hr

end

end StableNet.Wbft.ValidatorSet

namespace StableNet.Engine
open Chain Wbft Lib

/-- The turns that the count of a block goes through: one more than the rounds that pass. -/
def blockTurns (v : ValidatorSet) (lastProposer proposer : Address) : List (Option Address) :=
  (List.range (1+v.roundsTo lastProposer proposer)).map (v.turn lastProposer)

/-- The turns of all blocks, each of which has the block before it as the last proposer. -/
def epochTurns (v : ValidatorSet) : List Address → Address → List (List (Option Address))
  | [], _ => []
  | proposer::proposers, lastProposer => blockTurns v lastProposer proposer::epochTurns v proposers proposer

section
variable {v : ValidatorSet} {last p : Address}

lemma countRounds_succ {left round : ℕ} {a : Address} (h : v.turn last round = some a) (count : Address → ℤ) :
    countRounds v last p (left+1) round count =
      if a=p then .ok (bump count a 1) else countRounds v last p left (round+1) (bump count a 1) := by
  obtain ⟨val,hval,rfl⟩ := Option.map_eq_some_iff.mp h
  rw [countRounds,hval]
  rfl

lemma bump_eq_count (count : Address → ℤ) (a b : Address) (turns : List (Option Address)) :
    bump count a 1 b+turns.count (some b) = count b+(some a::turns).count (some b) := by
  rw [bump_apply,List.count_cons]
  by_cases h : b=a
  · simp [h]
    omega
  · simp [h,Ne.symm h]

theorem countRounds_eq {d left round : ℕ} (hd : d<left) (hturn : v.turn last (round+d) = some p)
    (hbefore : ∀ r, round ≤ r → r<round+d → ∃ a≠p, v.turn last r = some a) (count : Address → ℤ) :
    countRounds v last p left round count =
      .ok fun a => count a+((List.range' round (1+d)).map (v.turn last)).count (some a) := by
  obtain ⟨left,rfl⟩ := Nat.exists_eq_add_of_lt hd
  induction d generalizing round count with
  | zero =>
    rw [Nat.add_zero] at hturn
    rw [countRounds_succ hturn,if_pos rfl]
    congr 1
    funext a
    simpa [hturn] using bump_eq_count count p a []
  | succ d ih =>
    obtain ⟨a,hne,ha⟩ := hbefore round le_rfl (by omega)
    rw [show d+1+left+1 = (d+left+1)+1 by omega,countRounds_succ ha,if_neg hne,
      ih (by rwa [Nat.add_right_comm]) (fun r hr hlt => hbefore r (by omega) (by omega)) _ (by omega)]
    congr 1
    funext b
    rw [bump_eq_count,show 1+(d+1) = 1+d+1 by omega,List.range'_succ,List.map_cons,ha]

lemma exists_turn_eq_some (last : Address) (hsize : v.size<2^63) {round : ℕ} (hround : round<v.size) :
    ∃ a, v.turn last round = some a := by
  rw [ValidatorSet.turn_eq hsize hround]
  have hlt : (v.firstTurn last+round)%v.size<v.addressList.length := by
    simpa [ValidatorSet.addressList,ValidatorSet.size] using Nat.mod_lt _ (by omega : v.size > 0)
  exact ⟨_,List.getElem?_eq_getElem hlt⟩

lemma countRounds_block (hsize : v.size<2^63) (hp : p ∈ v.addressList) (count : Address → ℤ) :
    countRounds v last p v.size 0 count = .ok fun a => count a+(blockTurns v last p).count (some a) := by
  obtain ⟨hlt,hturn,hbefore⟩ := ValidatorSet.roundsTo_spec last hsize hp
  rw [blockTurns,List.range_eq_range']
  refine countRounds_eq hlt (by rwa [Nat.zero_add]) (fun r _ hr => ?_) count
  rw [Nat.zero_add] at hr
  obtain ⟨a,ha⟩ := exists_turn_eq_some last hsize (hr.trans hlt)
  exact ⟨a,fun h => hbefore r hr (h ▸ ha),ha⟩

lemma countProposers_eq (hsize : v.size<2^63) (proposers : List Address)
    (hproposers : ∀ p ∈ proposers, p ∈ v.addressList) (lastProposer : Address) (count : Address → ℤ) :
    countProposers v proposers lastProposer count =
      .ok fun a => count a+((epochTurns v proposers lastProposer).map (List.count (some a))).sum := by
  induction proposers generalizing lastProposer count with
  | nil => simp [countProposers,epochTurns]
  | cons p proposers ih =>
    rw [countProposers,countRounds_block hsize (hproposers p List.mem_cons_self),ok_bind,
      ih fun q hq => hproposers q (List.mem_cons_of_mem _ hq)]
    congr 1
    funext a
    rw [epochTurns,List.map_cons,List.sum_cons]
    push_cast
    ring

end

/-- Counting the proposers of an epoch finds every one of them, for each policy and every last proposer.
A block adds its turns, one more than the rounds that the rule of the policy needs to reach its proposer. -/
theorem proposers_found (v : ValidatorSet) (hsize : v.size<2^63) (proposers : List Address)
    (hproposers : ∀ p ∈ proposers, p ∈ v.addressList) (lastProposer : Address) (count : Address → ℤ) :
    countProposers v proposers lastProposer count =
      .ok (fun a => count a+((epochTurns v proposers lastProposer).map (List.count (some a))).sum) ∧
    ∀ last, ∀ p ∈ proposers, (blockTurns v last p).length = 1+v.roundsTo last p ∧
      v.turn last (v.roundsTo last p) = some p ∧ ∀ round<v.roundsTo last p, v.turn last round ≠ some p := by
  refine ⟨countProposers_eq hsize proposers hproposers lastProposer count,fun last p hp => ?_⟩
  obtain ⟨_,hturn,hbefore⟩ := ValidatorSet.roundsTo_spec last hsize (hproposers p hp)
  exact ⟨by simp [blockTurns],hturn,hbefore⟩

namespace ThreeValidators

def valSet (policy : ProposerPolicy) : ValidatorSet := .newSet [1,2,3] [11,12,13] policy

lemma addressList_valSet (policy : ProposerPolicy) : (valSet policy).addressList = [1,2,3] := rfl

/-- The last proposer is no validator, and the second block skips a turn. -/
theorem turns_counted : (∀ p ∈ ([2,1] : List Address), p ∈ (valSet .roundRobin).addressList) ∧
    (∃ count, countProposers (valSet .roundRobin) [2,1] 9 (fun _ => 0) = .ok count ∧ count 3=1) := by
  have hmem : ∀ p ∈ ([2,1] : List Address), p ∈ (valSet .roundRobin).addressList := by simp [addressList_valSet]
  exact ⟨hmem,_,(proposers_found (valSet .roundRobin) (by decide) [2,1] hmem 9 fun _ => 0).1,by decide⟩

/-- With the sticky policy a proposer that stays has its turn at once, while the round-robin rule would
need two more rounds to reach it. -/
theorem sticky_turn : (∃ count, countProposers (valSet .sticky) [1] 1 (fun _ => 0) = .ok count ∧
    count 1=1 ∧ count 2=0 ∧ count 3=0) ∧ (valSet .roundRobin).roundsTo 1 1 = 2 := by
  have hmem : ∀ p ∈ ([1] : List Address), p ∈ (valSet .sticky).addressList := by simp [addressList_valSet]
  exact ⟨⟨_,countProposers_eq (by decide) [1] hmem 1 fun _ => 0,by decide⟩,by decide⟩

end ThreeValidators

/-- The turns of a cycle are the list of the validators, rotated, so that of the first `k+1` proposers one is none
of any `k` accounts. -/
theorem rotation_reaches (v : ValidatorSet) (hsize : v.size<2^63) (hnodup : v.addressList.Nodup) (last : Address) :
    (∀ round<v.size, v.turn last round = (v.addressList.rotate (v.firstTurn last))[round]?) ∧
      ∀ faulty : Finset Address, faulty.card<v.size →
        ∃ round ≤ faulty.card, ∃ a ∈ v.addressList, v.turn last round = some a ∧ a ∉ faulty := by
  refine ⟨fun round => ValidatorSet.turn_eq_rotate hsize,fun faulty hfaulty => ?_⟩
  -- the first proposers are distinct, and there are more of them than faulty accounts
  have hlength : v.addressList.length=v.size := List.length_map _
  have hcard : faulty.card<((v.addressList.rotate (v.firstTurn last)).take (faulty.card+1)).toFinset.card := by
    rw [List.toFinset_card_of_nodup ((List.nodup_rotate.mpr hnodup).sublist (List.take_sublist _ _)),List.length_take,
      List.length_rotate]
    omega
  obtain ⟨a,ha,hne⟩ := Finset.exists_mem_notMem_of_card_lt_card hcard
  have htake := List.mem_toFinset.mp ha
  obtain ⟨round,hround,hget⟩ := List.mem_take_iff_getElem.mp htake
  refine ⟨round,by omega,a,List.mem_rotate.mp (List.mem_of_mem_take htake),?_,hne⟩
  rw [ValidatorSet.turn_eq_rotate hsize (by omega),← hget]
  exact List.getElem?_eq_getElem _

theorem ThreeValidators.sticky_rotation : ∃ round ≤ 2, ∃ a ∈ (valSet .sticky).addressList,
    (valSet .sticky).turn 2 round = some a ∧ a ∉ ({2,3} : Finset Address) :=
  (rotation_reaches (valSet .sticky) (by decide) (by decide) 2).2 {2,3} (by decide)

end StableNet.Engine
