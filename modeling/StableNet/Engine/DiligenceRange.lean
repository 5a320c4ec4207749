import StableNet.Engine.EpochChain
import Mathlib.Tactic.IntervalCases

/-! Diligence over a verified chain: when the diligence of the candidates is computed without an error,
and when it stays in its range. -/
namespace StableNet.Engine
open Chain Wbft Lib Config

namespace HeaderChain

variable {v : Verifier} {sorter : SortSlice} {gov : ℕ → GovView} {H : ℕ → Header} {N E : ℕ}
  {latest prior : EpochInfo}
variable {ctx : EpochContext} {a : Address} {ci : CandidateInfo}

/-- The previous seals of the epoch's blocks that an account has signed. -/
def sealsOf (v : Verifier) (H : ℕ → Header) (N E : ℕ) (a : Address) : ℕ :=
  ((blocksDown E (N-E)).map fun j => (signersAt v H j).count a).sum

/-- The epoch and the validator sets are small enough for 64-bit arithmetic. -/
def Sized (e : ℕ) (latest prior : EpochInfo) : Prop :=
  20*diligenceDenominator*(e*(max latest.validators.length prior.validators.length+1)^2)<2^63

instance (e : ℕ) (latest prior : EpochInfo) : Decidable (Sized e latest prior) :=
  inferInstanceAs (Decidable (_<_))

/-- The counters of an account are those of the blocks of the epoch. -/
structure Recorded (v : Verifier) (H : ℕ → Header) (N E : ℕ) (latest prior : EpochInfo) (a : Address) (r : Record)
    (cnt : ℕ) : Prop where
  length : r.epochLength = N-E
  validators : r.validators=latest.validators.length
  diff : r.validatorsDiff = latest.validators.length-prior.validators.length
  first : r.isFirstProposer=true ↔ (H (E+1)).coinbase = a
  submitted : r.submitted = sealsOf v H N E a
  submitted_le : r.submitted ≤ (if a ∈ latest.getValidators then 2*(N-E-1) else 0) +
    if E≠0 ∧ a ∈ prior.getValidators then 2 else 0
  proposed_le : r.proposed+(if r.isFirstProposer then 2*latest.validators.length else 0) ≤
    2*latest.validators.length*cnt+if r.isFirstProposer then boundarySeals E prior else 0
  cnt_le : cnt ≤ N-E
  turns_ge : (cnt : ℤ) ≤ r.beingProposer+if E=0 ∧ r.isFirstProposer then 1 else 0
  turns_le : r.beingProposer ≤ (N-E : ℕ)*latest.validators.length

section
variable (hc : HeaderChain v sorter gov H N) (hs : v.config.Sorted) (hsp : Span v H N E latest prior)
include hc hs hsp

lemma Tallied.recorded (ht : Tallied v H N E latest prior ctx) (a : Address) :
    ∃ cnt, Recorded v H N E latest prior a (ctx.record a) cnt := by
  have hlt := hsp.lt
  have hpos : 0<N-E := by omega
  obtain ⟨hsub₁,hlen₁⟩ := hsp.signers_first hc hs
  have hinner {j : ℕ} (hj : E+1<j) (hle : j ≤ E+(N-E)) := hsp.signers_inner hc hs hj (by omega)
  have hcount := ht.counted
  have hfirst : (ctx.record a).isFirstProposer=true ↔ (H (E+1)).coinbase = a := by
    simp [EpochContext.record,ht.firstProposer,eq_comm]
  have hprop : ctx.tally.proposers = (blocksDown E (N-E)).map fun j => (H j).coinbase := by
    simpa [Tally.empty] using hcount.proposers
  have hbeing := hcount.being a
  rw [countP_blocksDown (fun j => (H j).coinbase) hpos,
    show Tally.empty.beingProposerCountInEpoch a=0 from rfl,zero_sub] at hbeing
  have hge := ht.turns_ge a
  have hle := ht.turns_le a
  rw [hbeing] at hge hle
  refine ⟨ctx.tally.proposers.count a,?_,?_,ht.validatorsDiff,hfirst,?_,?_,?_,?_,?_,?_⟩
  · simpa [EpochContext.record,Tally.empty] using hcount.length
  · simp [EpochContext.record,ht.latest_eq]
  · simpa [EpochContext.record,Tally.empty,sealsOf] using hcount.submitted a
  · have hsum := sum_blocksDown_le (E := E) hpos (f := fun j => (signersAt v H j).count a)
      (fun j hj hjle => (hinner hj hjle).1 a) (hsub₁ a)
    have heq : (ctx.record a).submitted = ((blocksDown E (N-E)).map fun j => (signersAt v H j).count a).sum := by
      simpa [EpochContext.record,Tally.empty] using hcount.submitted a
    rw [heq]
    refine hsum.trans (Nat.add_le_add_right ?_ _)
    split <;> omega
  · have hsum := sum_proposed_le (E := E) (a := a) (fun j => (H j).coinbase) hpos
      (f := fun j => (signersAt v H j).length) (fun j hj hjle => (hinner hj hjle).2) hlen₁
    have heq : (ctx.record a).proposed = ((blocksDown E (N-E)).map fun j =>
        if (H j).coinbase = a then (signersAt v H j).length else 0).sum := by
      simpa [EpochContext.record,Tally.empty] using hcount.proposed a
    rw [heq,hprop]
    simpa only [hfirst] using hsum
  · rw [hprop]
    simpa using List.count_le_length (a := a) (l := (blocksDown E (N-E)).map fun j => (H j).coinbase)
  · show _ ≤ ctx.beingProposerCount a+_
    simp only [hfirst]
    push_cast at hge
    omega
  · show ctx.beingProposerCount a ≤ _
    rw [hprop,List.length_map,length_blocksDown] at hle
    push_cast at hle
    split at hle <;> omega

lemma prior_pos (hE : E≠0) : 0<prior.validators.length := by
  have hlt := hsp.lt
  have hnum : (H E).number≠0 := by
    rw [hc.number E hlt.le]
    exact hE
  obtain ⟨valSet,_,_,_,hval,_,hag⟩ := against_of_verifyHeader hnum (hc.accepts E (by omega) hlt.le)
  obtain ⟨val,hmem,_⟩ := hag.signer_mem
  obtain ⟨x,hx,hsnd⟩ := Option.map_eq_some_iff.mp hsp.prior
  unfold getEpochInfoOfHeader at hx
  rw [if_neg hnum] at hx
  rw [getValidators,if_neg hnum,hx] at hval
  simp only [Option.map_some,Option.some.injEq] at hval
  have hkeys := (hc.wellFormed_infoOf hs hlt.le hsp.prior).keys
  have hsize : valSet.validators.length=prior.validators.length := by
    rw [← hval,hsnd]
    simp [ValidatorSet.newSet,ValidatorSet.newDefaultSet,EpochInfo.getValidators,hkeys]
  rw [← hsize]
  exact List.length_pos_of_mem hmem

end

lemma Sized.bounds {e : ℕ} (h : Sized e latest prior) (he : 0<e) {n : ℕ}
    (hn : n ≤ max latest.validators.length prior.validators.length) :
    20*diligenceDenominator*e<2^63 ∧ 20*diligenceDenominator*(e*n)<2^63 ∧
      20*diligenceDenominator*(e*n*n)<2^63 ∧ 20*diligenceDenominator*n<2^63 := by
  unfold Sized at h
  generalize max latest.validators.length prior.validators.length = M at h hn
  have hmono {x : ℕ} (hx : x ≤ e*(M+1)^2) : 20*diligenceDenominator*x<2^63 :=
    lt_of_le_of_lt (Nat.mul_le_mul_left _ hx) h
  have hsq : e*(M+1)^2 = e*M*M+2*(e*M)+e := by ring
  have hem : e*n ≤ e*M := Nat.mul_le_mul_left e hn
  have hemm : e*n*n ≤ e*M*M := Nat.mul_le_mul hem hn
  have hne : n ≤ e*n := Nat.le_mul_of_pos_left n he
  exact ⟨hmono (by omega),hmono (by omega),hmono (by omega),hmono (by omega)⟩

lemma Recorded.bounded (hc : HeaderChain v sorter gov H N) (hs : v.config.Sorted)
    (hsp : Span v H N E latest prior) (hsize : Sized (N-E) latest prior) {r : Record} {cnt : ℕ}
    (hr : Recorded v H N E latest prior a r cnt) (hpos : 0<latest.validators.length)
    (hv : ci.isValidator=true ↔ a ∈ latest.getValidators) (hw : ci.wasValidator=true → E≠0) : r.Bounded ci := by
  have hlt := hsp.lt
  obtain ⟨h1,h2,h3,h4⟩ := hsize.bounds (by omega) (le_max_left latest.validators.length prior.validators.length)
  obtain ⟨_,_,_,h5⟩ := hsize.bounds (by omega) (le_max_right latest.validators.length prior.validators.length)
  have hsub := hr.submitted_le
  have hprop := hr.proposed_le
  have hlen := hr.length
  have hbound : boundarySeals E prior ≤ 2*prior.validators.length := by
    unfold boundarySeals
    split <;> omega
  have hcnt : latest.validators.length*cnt ≤ (N-E)*latest.validators.length := by
    rw [Nat.mul_comm]
    exact Nat.mul_le_mul_right _ hr.cnt_le
  have hsub2 : r.submitted ≤ 2*(N-E) := by
    split at hsub <;> split at hsub <;> omega
  have hprop2 : r.proposed ≤ 2*((N-E)*latest.validators.length)+2*prior.validators.length := by
    rw [Nat.mul_assoc] at hprop
    split at hprop <;> omega
  have hturns := hr.turns_le
  -- the seals of the candidate's turns are a product of the two sizes
  have hmax : 0<r.beingProposer → (r.validators : ℤ)*r.beingProposer ≤
      ((N-E : ℕ)*latest.validators.length*latest.validators.length : ℕ) ∧
      (r.validators : ℤ) ≤ r.validators*r.beingProposer := by
    intro hb
    rw [hr.validators]
    constructor
    · push_cast
      calc (latest.validators.length : ℤ)*r.beingProposer
          ≤ latest.validators.length*((N-E : ℕ)*latest.validators.length) := by gcongr
        _=_ := by ring
    · exact le_mul_of_one_le_right (by omega) hb
  unfold diligenceDenominator at h1 h2 h3 h4 h5
  refine ⟨by omega,by unfold diligenceDenominator; omega,by unfold diligenceDenominator; omega,fun hnew => ?_,
    by unfold diligenceDenominator; omega,fun hb => ?_,fun hb => ?_⟩
  · unfold Record.rate
    rw [hlen]
    cases hiv : ci.isValidator with
    | false =>
      have : a ∉ latest.getValidators := fun h => by simp [hv.mpr h] at hiv
      simp only [this,if_false] at hsub
      simp
      split at hsub <;> omega
    | true =>
      have hwas : ci.wasValidator=true := by simpa [CandidateInfo.isNew,hiv] using hnew
      simp only [hwas]
      simp
      omega
  · obtain ⟨_,hge⟩ := hmax hb
    unfold Record.maxProposedSeals
    dsimp only
    rw [Int.mul_assoc]
    split
    · rename_i hfw
      have hfw : ci.wasValidator=true := by
        simp only [Bool.and_eq_true] at hfw
        exact hfw.2
      have hpp := hc.prior_pos hs hsp (hw hfw)
      rw [hr.diff]
      rw [hr.validators] at hge ⊢
      omega
    · rw [hr.validators] at hge ⊢
      omega
  · obtain ⟨hle,_⟩ := hmax hb
    unfold Record.maxProposedSeals
    dsimp only
    rw [Int.mul_assoc,hr.diff]
    split <;> omega

/-- No two epoch blocks are next to each other. -/
def LongEpochs (c : Config) : Prop := ∀ n, ¬ (c.IsEpochBlock n ∧ c.IsEpochBlock (n+1))

/-- A validator of the epoch that is not taken for one of the epoch before, and has no block in the
epoch that counts for it, or more seals than its blocks can hold. -/
def Overcounted (v : Verifier) (H : ℕ → Header) (N E : ℕ) (latest : EpochInfo) (W : List Address) (a : Address) :
    Prop :=
  a ∈ latest.getValidators ∧ a ∉ W ∧ (N = E+1 ∨ 2*(N-E-1)<sealsOf v H N E a)

section
variable (hc : HeaderChain v sorter gov H N) (hs : v.config.Sorted) (hsp : Span v H N E latest prior)
  (hlong : LongEpochs v.config)
include hc hs hsp hlong

theorem priorValidators_of_long {W : List Address}
    (hW : PriorValidators v H E W) (hE : E≠0) : W=prior.getValidators := by
  have hlt := hsp.lt
  unfold PriorValidators at hW
  rw [if_neg hE] at hW
  obtain ⟨info,hinfo,rfl⟩ := hW
  obtain ⟨b,hb⟩ := hsp.last
  have hepochE := isEpochBlock_last hs hb
  obtain ⟨k,rfl⟩ : ∃ k, E = k+1 := ⟨E-1,by omega⟩
  have hprior := hsp.prior
  rw [Nat.add_sub_cancel] at hinfo
  cases hlast : v.config.isEpochBlockNumber k with
  | none =>
    unfold Verifier.infoOf getEpochInfoOfHeader getEpochInfo at hprior
    rw [if_neg (by rw [hc.number _ hlt.le]; omega),hc.number _ hlt.le,hc.predNumber_eq (by omega)] at hprior
    simp [hlast] at hprior
  | some y =>
    have hlast : v.config.isEpochBlockNumber k = some (y.1,y.2) := hlast
    have hle := isEpochBlockNumber_le hlast
    have hne : y.2≠k := fun h => hlong k ⟨h ▸ isEpochBlock_last hs hlast,hepochE⟩
    obtain ⟨j,rfl⟩ : ∃ j, k = j+1 := ⟨k-1,by omega⟩
    have hbelow := isEpochBlockNumber_of_le hs hlast (m := j) (by omega) (by omega)
    unfold Verifier.infoOf at hinfo hprior
    rw [hc.infoOf_succ (by omega) hlast] at hprior
    rw [hc.infoOf_succ (by omega) hbelow] at hinfo
    rw [hinfo,Option.some.injEq] at hprior
    rw [hprior]

theorem not_overcounted (hepoch : v.config.IsEpochBlock N)
    {W : List Address} (hW : PriorValidators v H E W) (a : Address) : ¬ Overcounted v H N E latest W a := by
  rintro ⟨hV,hnot,hcase⟩
  have hlt := hsp.lt
  obtain ⟨b,hb⟩ := hsp.last
  rcases hcase with rfl | hcase
  · exact hlong E ⟨isEpochBlock_last hs hb,hepoch⟩
  · have hinner {j : ℕ} (hj : E+1<j) (hle : j ≤ E+(N-E)) := (hsp.signers_inner hc hs hj (by omega)).1 a
    have hfirst := (hsp.signers_first hc hs).1 a
    have hsum := sum_blocksDown_le (E := E) (show 0<N-E by omega) (fun j hj hle => hinner hj hle) hfirst
    have hzero : ¬ (E≠0 ∧ a ∈ prior.getValidators) := fun h =>
      hnot (hc.priorValidators_of_long hs hsp hlong hW h.1 ▸ h.2)
    rw [if_pos hV,if_neg hzero] at hsum
    unfold sealsOf at hcase
    omega

end

lemma candidateInfo_some (h : ctx.candidateInfo a = some ci) :
    (ci.isValidator=true ↔ a ∈ ctx.latest.getValidators) ∧ (ci.wasValidator=true ↔ a ∈ ctx.prior) ∧
      ci.candidate ∈ ctx.latest.candidates := by
  obtain ⟨x,hx,rfl⟩ := Option.map_eq_some_iff.mp h
  exact ⟨decide_eq_true_iff,decide_eq_true_iff,by simpa using List.mem_of_find?_eq_some hx⟩

lemma candidateInfo_of_validator (hw : WellFormed ctx.latest)
    (h : a ∈ ctx.latest.getValidators) : ∃ ci, ctx.candidateInfo a = some ci := by
  obtain ⟨i,hi,rfl⟩ := List.mem_map.mp h
  have hlt := hw.validators_lt i hi
  have hmem : ctx.latest.candidates[i] ∈ ctx.latest.candidates := List.getElem_mem hlt
  have haddr : ctx.latest.candidates[i].addr = ctx.latest.getCandidate i := by simp [EpochInfo.getCandidate,hlt]
  cases hfind : ctx.latest.candidates.reverse.find? (·.addr = ctx.latest.getCandidate i) with
  | some x => exact ⟨_,by unfold EpochContext.candidateInfo; rw [hfind]; rfl⟩
  | none =>
    have := List.find?_eq_none.mp hfind _ (List.mem_reverse.mpr hmem)
    simp [haddr] at this

lemma Tallied.ne_zero_of_was (ht : Tallied v H N E latest prior ctx) (h : a ∈ ctx.prior) : E≠0 := by
  intro hE
  have hnil := ht.prior_eq
  unfold PriorValidators at hnil
  rw [if_pos hE] at hnil
  simp [hnil] at h

lemma Tallied.isNew_iff (ht : Tallied v H N E latest prior ctx) (h : ctx.candidateInfo a = some ci) :
    ci.isNew=true ↔ a ∈ latest.getValidators ∧ a ∉ ctx.prior := by
  obtain ⟨hv,hw,_⟩ := candidateInfo_some h
  rw [ht.latest_eq] at hv
  simp [CandidateInfo.isNew,← hv,← hw]

section
variable (hc : HeaderChain v sorter gov H N) (hs : v.config.Sorted) (hsp : Span v H N E latest prior)
  (hsize : Sized (N-E) latest prior)
include hc hs hsp hsize

section
variable (ht : Tallied v H N E latest prior ctx) (h : ctx.candidateInfo a = some ci)
include ht h

lemma Tallied.bounded : (ctx.record a).Bounded ci := by
  obtain ⟨hv,hw,_⟩ := candidateInfo_some h
  obtain ⟨cnt,hr⟩ := ht.recorded hc hs hsp a
  exact hr.bounded hc hs hsp hsize ht.validators_pos (ht.latest_eq ▸ hv) fun hwas => ht.ne_zero_of_was (hw.mp hwas)

theorem Tallied.submitted_error :
    (∃ e, (ctx.record a).newDiligence ci = .error e) ↔ Overcounted v H N E latest ctx.prior a := by
  have hb := ht.bounded hc hs hsp hsize h
  have hpos := hb.length_pos
  obtain ⟨cnt,hr⟩ := ht.recorded hc hs hsp a
  have hnew := ht.isNew_iff h
  simp only [Record.newDiligence_eq_error hb,Record.submittedDiligence_eq_error hb,hnew,hr.length] at *
  rw [hr.submitted]
  unfold Overcounted
  constructor
  · rintro ⟨e,⟨hV,hW⟩,⟨hlt,_⟩ | ⟨_,heq,_⟩⟩
    · exact ⟨hV,hW,.inr hlt⟩
    · exact ⟨hV,hW,.inl (by omega)⟩
  · rintro ⟨hV,hW,hcase⟩
    by_cases hle : sealsOf v H N E a ≤ 2*(N-E-1)
    · exact ⟨_,⟨hV,hW⟩,.inr ⟨hle,by omega,rfl⟩⟩
    · exact ⟨_,⟨hV,hW⟩,.inl ⟨by omega,rfl⟩⟩

end

end

/-- The seals in the blocks of a candidate are at most those of its turns, unless the first proposer of
a smaller epoch is new. -/
theorem Recorded.proposed_le_max {r : Record} {cnt : ℕ} (hr : Recorded v H N E latest prior a r cnt)
    (hwas : ci.wasValidator=true → E≠0) (hfirst : E≠0 → r.isFirstProposer=true → ci.wasValidator=false →
      prior.validators.length ≤ latest.validators.length) : (r.proposed : ℤ) ≤ r.maxProposedSeals ci := by
  have hle := hr.proposed_le
  have hge := hr.turns_ge
  unfold boundarySeals at hle
  unfold Record.maxProposedSeals
  dsimp only
  rw [hr.validators,hr.diff,Int.mul_assoc]
  rw [Nat.mul_assoc] at hle
  generalize latest.validators.length = n at *
  generalize prior.validators.length = n' at *
  generalize r.beingProposer = w at *
  cases hf : r.isFirstProposer with
  | false =>
    simp only [hf,Bool.false_eq_true,and_false,if_false,add_zero] at hge hle
    have hmul : (n : ℤ)*cnt ≤ n*w := mul_le_mul_of_nonneg_left hge (Nat.cast_nonneg n)
    simp only [Bool.false_and,Bool.false_eq_true,if_false]
    omega
  | true =>
    simp only [hf,if_true,and_true,Bool.true_and] at hge hle ⊢
    by_cases hE : E=0
    · have hw : ci.wasValidator=false := by
        by_contra hw
        exact hwas (by simpa using hw) hE
      simp only [hE,if_true] at hge hle
      have hmul : (n : ℤ)*cnt ≤ n*(w+1) := mul_le_mul_of_nonneg_left hge (Nat.cast_nonneg n)
      rw [mul_add,mul_one] at hmul
      simp only [hw,Bool.false_eq_true,if_false]
      omega
    · simp only [hE,if_false,add_zero] at hge hle
      have hmul : (n : ℤ)*cnt ≤ n*w := mul_le_mul_of_nonneg_left hge (Nat.cast_nonneg n)
      cases hw : ci.wasValidator with
      | true =>
        simp only [if_true]
        omega
      | false =>
        have := hfirst hE hf hw
        simp only [Bool.false_eq_true,if_false]
        omega

lemma buildEpochInfo_eq {c : Config} {crypto : Crypto} {chain : ChainReader} {header : Header} {view : GovView}
    (hepoch : c.IsEpochBlock header.number) (hn : header.number≠0) :
    buildEpochInfo c crypto sorter chain header view = (do
      let ctx ← epochContext c chain header return some (← newEpochInfo crypto sorter ctx header.mixDigest view)) := by
  obtain ⟨last,hlast⟩ := hepoch
  unfold buildEpochInfo
  simp only [hlast,orError,bind,Except.bind,not_true_eq_false,if_false,hn]

lemma exists_of_buildEpochInfo_eq_error (hc : HeaderChain v sorter gov H N) (hN : 0<N)
    (hepoch : v.config.IsEpochBlock N) {e : EpochError} (he : e.isDiligence=true)
    (h : buildEpochInfo v.config v.crypto sorter v.chain (H N) (gov N) = .error e) :
    ∃ ctx, epochContext v.config v.chain (H N) = .ok ctx ∧ ∃ a ∈ (gov N).candidates, ctx.newCandidate a = .error e := by
  have hnum := hc.number N le_rfl
  rw [buildEpochInfo_eq (hnum.symm ▸ hepoch) (by omega)] at h
  rcases bind_eq_error.mp h with h | ⟨ctx,hctx,h⟩
  · simp [counts_epochContext (H N) e h] at he
  · rcases bind_eq_error.mp h with h | ⟨_,_,h⟩
    · exact ⟨ctx,hctx,newEpochInfo_eq_error he h⟩
    · cases h

end HeaderChain

open HeaderChain

namespace ShrinkingSet

def anzeon : AnzeonConfig := ⟨[1,2,3,4,5],[11,12,13,14,15],true⟩

/-- The five validators of the genesis block. -/
def genesisInfo : EpochInfo := ⟨anzeon.initValidators.map (⟨·,defaultDiligence⟩),[0,1,2,3,4],anzeon.initBLSPublicKeys⟩

/-- Five validators up to block 2, then a new one, with the first of the five or alone. -/
def nextInfo (kept : Bool) : EpochInfo :=
  if kept then ⟨[⟨1,1905000⟩,⟨9,defaultDiligence⟩],[0,1],[11,19]⟩ else ⟨[⟨9,defaultDiligence⟩],[0],[19]⟩

def aggregate (sealers : BitVec 8) : Option WBFTAggregatedSeal := some ⟨[sealers],[1]⟩

def extra (prevSealers sealers : Option (BitVec 8)) (epochInfo : Option EpochInfo) : WBFTExtra where
  vanityData := []
  randaoReveal := []
  prevRound := 0
  prevPreparedSeal := prevSealers.bind aggregate
  prevCommittedSeal := prevSealers.bind aggregate
  round := 0
  preparedSeal := sealers.bind aggregate
  committedSeal := sealers.bind aggregate
  gasTip := some 1
  epochInfo := epochInfo

def header (number : ℕ) (parentHash : Hash) (coinbase : Address) (extra : WBFTExtra) : Header :=
  { ThreeBlocks.header number 8000000 0 Params.minBaseFee with
    parentHash, coinbase, root := 1, extra := .wbft extra }

def genesis : Header := header 0 .zero 0 (extra none none (some genesisInfo))

def block1 : Header := header 1 genesis.hash 1 (extra none (some 0b11111) none)

def block2 (kept : Bool) : Header :=
  header 2 block1.hash 2 (extra (some 0b11111) (some 0b11111) (some (nextInfo kept)))

def nextSealers (kept : Bool) : Option (BitVec 8) := some (if kept then 0b11 else 0b1)

/-- The first block of the new set carries all previous seals of the old one. -/
def block3 (kept : Bool) : Header :=
  header 3 (block2 kept).hash (if kept then 1 else 9) (extra (some 0b11111) (nextSealers kept) none)

def block4 (kept : Bool) : Header := header 4 (block3 kept).hash 9 (extra (nextSealers kept) (nextSealers kept) none)

def H (kept : Bool) : ℕ → Header
  | 0 => genesis
  | 1 => block1
  | 2 => block2 kept
  | 3 => block3 kept
  | _ => block4 kept

def gov (kept : Bool) (k : ℕ) : GovView where
  candidates := if k<2 then [1,2,3,4,5] else (nextInfo kept).getValidators
  nodup := by split <;> cases kept <;> decide
  fits := by split <;> cases kept <;> decide
  blsPublicKey a := some (a.toNat+10)

def sorter : SortSlice where
  sort less xs := xs.insertionSort fun i j => less j i=false
  perm _ xs := List.perm_insertionSort _ xs

/-- The seals of all validators over their blocks. -/
def seals (kept : Bool) : List (PublicKey × SealPreimage) := do
  let (block,keys) ← [(block1,anzeon.initBLSPublicKeys),(block2 kept,anzeon.initBLSPublicKeys),
    (block3 kept,(nextInfo kept).blsPublicKeys),(block4 kept,(nextInfo kept).blsPublicKeys)]
  let key ← keys
  let sealType ← [SealType.prepare,SealType.commit]
  return (key,prepareSeal block 0 sealType)

/-- A node with the chain and an ideal BLS library: an aggregate verifies if every key has sealed the
message. -/
def node (kept : Bool) (transitions : List Transition) : Verifier where
  config := ⟨1,.roundRobin,2,0,transitions⟩
  crypto :=
    { verifyAggregate := fun keys pre _ => keys.all fun k => (seals kept).any fun s => s.1 = k && s.2=pre
      checkSig := fun _ _ _ => true
      keccak := fun _ => 0 }
  chain :=
    { config := ⟨some 0,none,none,some anzeon⟩
      getHeader := fun hash number => ([0,1,2,3].map (H kept)).find? fun h => h.hash=hash ∧ h.number=number
      getHeaderByNumber := fun number => ([0,1,2,3].map (H kept)).find? fun h => h.number=number
      stateAt := fun _ => some ⟨fun _ => false,some 1⟩ }
  now := 10

variable (kept : Bool)

lemma sorted : (node kept []).config.Sorted := List.Pairwise.nil

lemma longEpochs : LongEpochs (node kept []).config := by
  rintro n ⟨⟨_,h⟩,_,h'⟩
  simp [Config.isEpochBlockNumber,Config.epochRule,Config.transitionsAt,node] at h h'
  omega

lemma chain4 : HeaderChain (node kept []) sorter (gov kept) (H kept) 4 where
  number k hk := by interval_cases k <;> rfl
  link k hk := by interval_cases k <;> rfl
  getHeader k hk := by cases kept <;> interval_cases k <;> decide +kernel
  getHeaderByNumber k hk := by cases kept <;> interval_cases k <;> decide +kernel
  genesis := ⟨anzeon,rfl,by decide,by decide,genesisInfo,rfl,rfl⟩
  accepts k hpos hk := by cases kept <;> interval_cases k <;> decide +kernel
  epochs k hpos hk he := by
    interval_cases k
    · exact absurd he (by cases kept <;> decide)
    · obtain ⟨_,h,_⟩ := exists_of_holds (x := verifyEpoch (node kept []).config (node kept []).crypto sorter
        (node kept []).chain (H kept 2) (gov kept 2)) (P := fun _ => true) (by cases kept <;> decide +kernel)
      exact h
    · exact absurd he (by cases kept <;> decide)
  short k hk := by cases kept <;> interval_cases k <;> decide

lemma span4 : Span (node kept []) (H kept) 4 2 (nextInfo kept) genesisInfo where
  pos := by decide
  last := ⟨false,by cases kept <;> rfl⟩
  latest := by cases kept <;> decide +kernel
  prior := by cases kept <;> decide +kernel

lemma isEpochBlock4 : (node kept []).config.IsEpochBlock 4 := by cases kept <;> decide

/-- A configuration whose epoch rule starts anew at block 1. -/
def early : List Transition := [⟨1,0,10,none⟩]

lemma chain1 : HeaderChain (node true early) sorter (gov true) (H true) 1 where
  number k hk := by interval_cases k <;> rfl
  link k hk := by interval_cases k; rfl
  getHeader k hk := by interval_cases k; decide +kernel
  getHeaderByNumber k hk := by interval_cases k; decide +kernel
  genesis := ⟨anzeon,rfl,by decide,by decide,genesisInfo,rfl,rfl⟩
  accepts k hpos hk := by interval_cases k; decide +kernel
  epochs k hpos hk := by omega
  short k hk := by interval_cases k <;> decide

lemma span1 : Span (node true early) (H true) 1 0 genesisInfo genesisInfo where
  pos := by decide
  last := ⟨true,by rfl⟩
  latest := by decide +kernel
  prior := by decide +kernel

lemma exists_context : ∃ ctx, epochContext (node true []).config (node true []).chain (H true 4) = .ok ctx ∧
    (ctx.candidateInfo 1).isSome ∧ (ctx.candidateInfo 9).isSome ∧ 0<(ctx.record 1).submitted ∧
    0<(ctx.record 9).submitted := by
  obtain ⟨ctx,h,hctx⟩ := exists_of_holds (x := epochContext (node true []).config (node true []).chain (H true 4))
    (P := fun ctx => (ctx.candidateInfo 1).isSome && (ctx.candidateInfo 9).isSome &&
      decide (0<(ctx.record 1).submitted) && decide (0<(ctx.record 9).submitted)) (by decide +kernel)
  simp only [Bool.and_eq_true,decide_eq_true_eq] at hctx
  exact ⟨ctx,h,hctx.1.1.1,hctx.1.1.2,hctx.1.2,hctx.2⟩

end ShrinkingSet

lemma addressList_newSet {addrs : List Address} {keys : List PublicKey} (policy : ProposerPolicy)
    (h : keys.length=addrs.length) : (ValidatorSet.newSet addrs keys policy).addressList=addrs := by
  have hfst := List.map_fst_zip h.ge
  rw [List.zip,List.map_zipWith] at hfst
  exact List.map_zipWith.trans hfst

/-- On a verified chain the validators that a node looks up for a block have distinct addresses. -/
theorem validators_distinct {v : Verifier} {sorter : SortSlice} {gov : ℕ → GovView} {H : ℕ → Header} {N k : ℕ}
    (hc : HeaderChain v sorter gov H N) (hs : v.config.Sorted) (hpos : 0<k) (hk : k ≤ N) {valSet : ValidatorSet}
    (h : getValidators v.config v.chain k (H k).parentHash [] = some valSet) : valSet.addressList.Nodup := by
  rw [getValidators,if_neg hpos.ne'] at h
  obtain ⟨⟨e,info⟩,hinfo,rfl⟩ := Option.map_eq_some_iff.mp h
  have hlookup : v.infoOf (H k) = some info := by
    rw [Verifier.infoOf,getEpochInfoOfHeader,hc.number k hk,if_neg hpos.ne',hinfo]
    rfl
  have hw := hc.wellFormed_infoOf hs hk hlookup
  rw [addressList_newSet _ (by rw [hw.keys,EpochInfo.getValidators,List.length_map])]
  exact hw.getValidators_nodup

theorem ShrinkingSet.five_distinct : ∃ valSet, getValidators (node true []).config (node true []).chain 1
    (H true 1).parentHash [] = some valSet ∧ valSet.addressList = [1,2,3,4,5] ∧ valSet.addressList.Nodup :=
  ⟨_,rfl,rfl,validators_distinct (chain4 true) (sorted true) (by decide : 0<1) (by decide) rfl⟩

end StableNet.Engine
