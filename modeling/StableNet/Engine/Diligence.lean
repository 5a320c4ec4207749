import StableNet.Engine.Shuffle

/-! The diligence of one candidate stays in its range, provided that its counters stay in theirs. -/
namespace StableNet.Engine
open Chain Wbft Lib

/-- A validator that was none in the epoch before. -/
def CandidateInfo.isNew (ci : CandidateInfo) : Bool := ci.isValidator && !ci.wasValidator

namespace Record

/-- The number of blocks of the epoch that count for a candidate. -/
def rate (r : Record) (ci : CandidateInfo) : ℕ :=
  if ¬ ci.isValidator then 1 else if ¬ ci.wasValidator then r.epochLength-1 else r.epochLength

/-- The counters are in their range, and small enough for the products of the computation. -/
structure Bounded (r : Record) (ci : CandidateInfo) : Prop where
  length_pos : 0<r.epochLength
  length_lt : 20*diligenceDenominator*r.epochLength<2^64
  submitted_lt : r.submitted*diligenceDenominator<2^64
  submitted_le : ci.isNew=false → r.submitted ≤ 2*r.rate ci
  proposed_lt : r.proposed*diligenceDenominator<2^64
  max_pos : 0<r.beingProposer → 0<r.maxProposedSeals ci
  max_lt : 0<r.beingProposer → r.maxProposedSeals ci<2^63

/-- No product leaves its machine type. -/
structure Exact (r : Record) (ci : CandidateInfo) : Prop where
  length : 10*r.epochLength<2^64
  submitted : r.submitted*diligenceDenominator<2^64
  proposed : r.proposed*diligenceDenominator<2^64
  maxProposed : 0<r.beingProposer → 0<r.maxProposedSeals ci ∧ r.maxProposedSeals ci<2^63
  sum : ∀ rate d p, r.submittedDiligence ci = .ok (rate,d) → r.proposedDiligence ci = .ok p → d+p<2^64
  average : ∀ rate d p, r.submittedDiligence ci = .ok (rate,d) → r.proposedDiligence ci = .ok p →
    ci.candidate.diligence*(10*r.epochLength-rate)+(d+p)*rate<2^64

variable {r : Record} {ci : CandidateInfo}

lemma rate_le (r : Record) (ci : CandidateInfo) (h : 0<r.epochLength) : r.rate ci ≤ r.epochLength := by
  unfold rate
  split <;> [skip; split] <;> omega

lemma div_eq_ok {a b d : ℕ} : div a b = .ok d ↔ 0<b ∧ d = a/b := by
  unfold div
  split <;> simp_all [Nat.pos_iff_ne_zero,eq_comm]

lemma Bounded.length_small (h : r.Bounded ci) : 2*r.epochLength<2^64 ∧ 10*r.epochLength<2^64 := by
  have := h.length_lt
  unfold diligenceDenominator at this
  omega

theorem submittedDiligence_of_isNew (h : r.Bounded ci) (hn : ci.isNew=true) : r.submittedDiligence ci = (do
      require (r.submitted ≤ 2*(r.epochLength-1)) .sealCount
      let d ← div (r.submitted*diligenceDenominator) (2*(r.epochLength-1)) return (r.epochLength-1,d)) := by
  obtain ⟨h2,_⟩ := h.length_small
  have hpos := h.length_pos
  simp only [CandidateInfo.isNew,Bool.and_eq_true,Bool.not_eq_true'] at hn
  unfold submittedDiligence
  dsimp only
  rw [Nat.mod_eq_of_lt h.submitted_lt,Nat.mod_eq_of_lt h2,Nat.mod_eq_of_lt (show 2*(r.epochLength-1)<2^64 by omega),
    div_eq_ok.mpr ⟨show 0<2*r.epochLength by omega,rfl⟩]
  simp only [hn,not_true_eq_false,if_false,Bool.false_eq_true,not_false_eq_true,if_true]
  rfl

lemma submittedDiligence_of_not_isNew (h : r.Bounded ci) (hn : ci.isNew=false) :
    r.submittedDiligence ci = .ok (r.rate ci,r.submitted*diligenceDenominator/(2*r.rate ci)) := by
  obtain ⟨h2,_⟩ := h.length_small
  have hpos := h.length_pos
  unfold submittedDiligence rate
  dsimp only
  rw [Nat.mod_eq_of_lt h.submitted_lt,Nat.mod_eq_of_lt h2,div_eq_ok.mpr ⟨show 0<2*r.epochLength by omega,rfl⟩]
  cases hv : ci.isValidator with
  | false => simp [bind,Except.bind,pure,Except.pure]
  | true =>
    have hw : ci.wasValidator=true := by simpa [CandidateInfo.isNew,hv] using hn
    simp [hw,bind,Except.bind,pure,Except.pure]

lemma rate_of_isNew (hn : ci.isNew=true) : r.rate ci = r.epochLength-1 := by
  simp only [CandidateInfo.isNew,Bool.and_eq_true,Bool.not_eq_true'] at hn
  simp [rate,hn]

section
variable (h : r.Bounded ci)
include h

theorem submittedDiligence_eq (hs : r.submitted ≤ 2*r.rate ci) (hr : 0<r.rate ci) :
    r.submittedDiligence ci = .ok (r.rate ci,r.submitted*diligenceDenominator/(2*r.rate ci)) := by
  cases hn : ci.isNew with
  | false => exact submittedDiligence_of_not_isNew h hn
  | true =>
    rw [rate_of_isNew hn] at hs hr ⊢
    rw [submittedDiligence_of_isNew h hn,bind_eq_ok]
    refine ⟨(),require_eq_ok.mpr (decide_eq_true hs),bind_eq_ok.mpr ⟨_,div_eq_ok.mpr ⟨?_,rfl⟩,rfl⟩⟩
    omega

/-- The submitted seals of a new validator are refused if there are more than its blocks can hold, and
divided by zero if it has no block; nothing else goes wrong. -/
theorem submittedDiligence_eq_error {e : EpochError} :
    r.submittedDiligence ci = .error e ↔ ci.isNew=true ∧ (2*(r.epochLength-1)<r.submitted ∧ e = .sealCount ∨
        r.submitted ≤ 2*(r.epochLength-1) ∧ r.epochLength=1 ∧ e = .divideByZero) := by
  cases hn : ci.isNew with
  | false => simp [submittedDiligence_of_not_isNew h hn]
  | true =>
    have hpos := h.length_pos
    rw [submittedDiligence_of_isNew h hn]
    by_cases hle : r.submitted ≤ 2*(r.epochLength-1)
    · have hnot : ¬ 2*(r.epochLength-1)<r.submitted := Nat.not_lt.mpr hle
      by_cases hone : r.epochLength=1
      · have hzero : r.submitted=0 := by omega
        simp [require,hzero,div,hone,bind,Except.bind,eq_comm]
      · have hne : ¬ 2*(r.epochLength-1)=0 := by omega
        simp [require,hle,div,hne,hone,hnot,bind,Except.bind,pure,Except.pure]
    · simp [require,hle,Nat.not_le.mp hle,bind,Except.bind,eq_comm]

lemma proposedDiligence_eq (hb : 0<r.beingProposer) :
    r.proposedDiligence ci = .ok (r.proposed*diligenceDenominator/(r.maxProposedSeals ci).toNat) := by
  have hpos := h.max_pos hb
  have hlt := h.max_lt hb
  unfold proposedDiligence
  rw [if_pos hb,Nat.mod_eq_of_lt h.proposed_lt,Int.emod_eq_of_lt (by omega) (by omega),div_eq_ok]
  exact ⟨by omega,rfl⟩

lemma exists_proposedDiligence : ∃ p, r.proposedDiligence ci = .ok p := by
  by_cases hb : 0<r.beingProposer
  · exact ⟨_,proposedDiligence_eq h hb⟩
  · exact ⟨_,by rw [proposedDiligence,if_neg hb]⟩

lemma proposedDiligence_le (hp : 0<r.beingProposer → (r.proposed : ℤ) ≤ r.maxProposedSeals ci) {p : ℕ}
    (heq : r.proposedDiligence ci = .ok p) : p ≤ diligenceDenominator := by
  by_cases hb : 0<r.beingProposer
  · rw [proposedDiligence_eq h hb] at heq
    cases heq
    have := hp hb
    exact Nat.div_le_of_le_mul (Nat.mul_le_mul_right _ (by omega))
  · rw [proposedDiligence,if_neg hb] at heq
    cases heq
    exact le_rfl

lemma submittedDiligence_le (hs : r.submitted ≤ 2*r.rate ci) (hr : 0<r.rate ci)
    {rate d : ℕ} (heq : r.submittedDiligence ci = .ok (rate,d)) : rate ≤ r.epochLength ∧ d ≤ diligenceDenominator := by
  rw [submittedDiligence_eq h hs hr] at heq
  cases heq
  exact ⟨r.rate_le ci h.length_pos,Nat.div_le_of_le_mul (Nat.mul_le_mul_right _ hs)⟩

end

lemma average_le {old d rate e m : ℕ} (ho : old ≤ m) (hd : d ≤ m) (hr : rate ≤ e) :
    old*(10*e-rate)+d*rate ≤ m*(10*e) := by
  calc old*(10*e-rate)+d*rate
      ≤ m*(10*e-rate)+m*rate := Nat.add_le_add (Nat.mul_le_mul_right _ ho) (Nat.mul_le_mul_right _ hd)
    _ = m*(10*e) := by rw [← Nat.mul_add]; congr 1; omega

theorem newDiligence_le (h : r.Bounded ci) (hs : r.submitted ≤ 2*r.rate ci) (hr : 0<r.rate ci)
    (hp : 0<r.beingProposer → (r.proposed : ℤ) ≤ r.maxProposedSeals ci)
    (ho : ci.candidate.diligence ≤ 2*diligenceDenominator) :
    (∃ d, r.newDiligence ci = .ok d ∧ d ≤ 2*diligenceDenominator) ∧ r.Exact ci := by
  have hsum {rate d p : ℕ} (hd : r.submittedDiligence ci = .ok (rate,d)) (hp' : r.proposedDiligence ci = .ok p) :
      rate ≤ r.epochLength ∧ d+p ≤ 2*diligenceDenominator ∧
        ci.candidate.diligence*(10*r.epochLength-rate)+(d+p)*rate ≤
          2*diligenceDenominator*(10*r.epochLength) := by
    obtain ⟨hrate,hle⟩ := submittedDiligence_le h hs hr hd
    have hle' := proposedDiligence_le h hp hp'
    exact ⟨hrate,by omega,average_le ho (by omega) hrate⟩
  have hsmall : 2*diligenceDenominator*(10*r.epochLength)<2^64 := by
    have := h.length_lt
    unfold diligenceDenominator at this ⊢
    omega
  refine ⟨?_,h.length_small.2,h.submitted_lt,h.proposed_lt,fun hb => ⟨h.max_pos hb,h.max_lt hb⟩,
    fun rate d p hd hp' => ?_,fun rate d p hd hp' => lt_of_le_of_lt (hsum hd hp').2.2 hsmall⟩
  · obtain ⟨p,hp'⟩ := exists_proposedDiligence h
    have hd := submittedDiligence_eq h hs hr
    obtain ⟨_,hle,havg⟩ := hsum hd hp'
    refine ⟨_,bind_eq_ok.mpr ⟨_,hd,bind_eq_ok.mpr ⟨p,hp',rfl⟩⟩,?_⟩
    rw [cumulative,Nat.mod_eq_of_lt (lt_of_le_of_lt hle (by unfold diligenceDenominator; omega)),
      Nat.mod_eq_of_lt (lt_of_le_of_lt havg hsmall),Nat.div_div_eq_div_mul]
    exact Nat.div_le_of_le_mul (by rwa [Nat.mul_comm (10*r.epochLength)])
  · have := (hsum hd hp').2.1
    unfold diligenceDenominator at this
    omega

theorem newDiligence_eq_error (h : r.Bounded ci) {e : EpochError} :
    r.newDiligence ci = .error e ↔ r.submittedDiligence ci = .error e := by
  unfold newDiligence
  constructor
  · intro herr
    rcases bind_eq_error.mp herr with herr | ⟨x,_,herr⟩
    · exact herr
    · obtain ⟨p,hp⟩ := exists_proposedDiligence h
      simp [hp,bind,Except.bind,pure,Except.pure] at herr
  · intro herr
    simp [herr,bind,Except.bind]

end Record

lemma bump_apply {M : Type} [Add M] (m : Address → M) (a b : Address) (k : M) :
    bump m a k b = if b=a then m b+k else m b := rfl

lemma foldl_bump (signers : List Address) (m : Address → ℕ) (a : Address) :
    signers.foldl (fun m addr => bump m addr 1) m a = m a+signers.count a := by
  induction signers generalizing m with
  | nil => simp
  | cons b signers ih =>
    rw [List.foldl_cons,ih,bump_apply,List.count_cons]
    by_cases hab : a=b
    · subst hab
      simp
      omega
    · have hba : (b == a)=false := by simpa using fun h => hab h.symm
      simp [hab,hba]

theorem countRounds_bounds {valSet : ValidatorSet} {lastProposer proposer : Address} {left round : ℕ}
    {count count' : Address → ℤ}
    (h : countRounds valSet lastProposer proposer left round count = .ok count') (a : Address) :
    count a+(if a=proposer then 1 else 0) ≤ count' a ∧ count' a ≤ count a+left := by
  induction left generalizing round count with
  | zero => cases h
  | succ left ih =>
    obtain ⟨currP,_,h⟩ := bind_eq_ok.mp h
    dsimp only at h
    split at h
    · rename_i heq
      cases h
      rw [bump_apply,heq]
      split <;> push_cast <;> omega
    · rename_i hne
      obtain ⟨hlo,hhi⟩ := ih h
      rw [bump_apply] at hlo hhi
      by_cases hp : a=proposer
      · subst hp
        rw [if_neg (fun h => hne h.symm)] at hlo hhi
        push_cast
        omega
      · simp only [if_neg hp] at hlo ⊢
        push_cast
        split at hlo <;> split at hhi <;> omega

lemma countProposers_bounds {valSet : ValidatorSet} {proposers : List Address} {lastProposer : Address}
    {count count' : Address → ℤ} (h : countProposers valSet proposers lastProposer count = .ok count') (a : Address) :
    count a+proposers.count a ≤ count' a ∧ count' a ≤ count a+proposers.length*valSet.size := by
  induction proposers generalizing lastProposer count with
  | nil =>
    cases h
    simp
  | cons p proposers ih =>
    obtain ⟨count₁,h₁,h⟩ := bind_eq_ok.mp h
    obtain ⟨hlo,hhi⟩ := countRounds_bounds h₁ a
    obtain ⟨hlo',hhi'⟩ := ih h
    rw [List.count_cons,List.length_cons]
    constructor
    · by_cases hp : a=p
      · subst hp
        simp at hlo ⊢
        omega
      · have : (p == a)=false := by simpa using fun h => hp h.symm
        simp [this,hp] at hlo ⊢
        omega
    · push_cast
      rw [add_mul,one_mul]
      omega

/-- The candidates are distinct, the validators are distinct candidates and each has a key, and no
diligence is out of range. -/
structure WellFormed (info : EpochInfo) : Prop where
  candidates : (info.candidates.map Candidate.addr).Nodup
  validators : info.validators.Nodup
  validators_lt : ∀ v ∈ info.validators, v < info.candidates.length
  keys : info.blsPublicKeys.length = info.validators.length
  diligence : ∀ x ∈ info.candidates, x.diligence ≤ 2*diligenceDenominator

lemma getCandidate_eq {info : EpochInfo} {v : ℕ} (h : v < info.candidates.length) :
    info.getCandidate v = (info.candidates.map Candidate.addr).get ⟨v,by simpa using h⟩ := by
  simp [EpochInfo.getCandidate,h]

namespace WellFormed

variable {info : EpochInfo}

lemma getValidators_nodup (h : WellFormed info) : info.getValidators.Nodup := by
  refine List.Nodup.map_on (fun v hv w hw heq => ?_) h.validators
  rw [getCandidate_eq (h.validators_lt v hv),getCandidate_eq (h.validators_lt w hw)] at heq
  exact h.candidates.getElem_inj_iff.mp heq

end WellFormed

lemma forall₂_eq_map {α β : Type} {g : α → β} {xs : List α} {ys : List β}
    (h : List.Forall₂ (fun x y => y = g x) xs ys) : ys = xs.map g := by
  induction h with
  | nil => rfl
  | cons hxy _ ih => rw [List.map_cons,hxy,ih]

lemma newCandidate_ok {ctx : EpochContext} {a : Address} {x : Candidate} (h : ctx.newCandidate a = .ok x) :
    x.addr=a ∧ x.diligence ≤ 2*diligenceDenominator := by
  obtain ⟨d,_,h⟩ := bind_eq_ok.mp h
  obtain ⟨_,hd,h⟩ := bind_eq_ok.mp h
  cases h
  exact ⟨rfl,of_decide_eq_true (require_eq_ok.mp hd)⟩

theorem withKey_ok {gov : GovView} {candidates : List Candidate} {vs : List ℕ} {keyed : List (Option (ℕ × PublicKey))}
    (h : vs.mapM (withKey gov candidates) = .ok keyed) : (keyed.filterMap (·.map Prod.fst)).Sublist vs ∧
      (keyed.filterMap (·.map Prod.snd)).length = (keyed.filterMap (·.map Prod.fst)).length := by
  replace h := mapM_eq_ok.mp h
  induction h with
  | nil => simp
  | @cons v k vs keyed hk _ ih =>
    obtain ⟨x,_,hk⟩ := bind_eq_ok.mp hk
    cases hk
    cases gov.blsPublicKey x.addr with
    | none =>
      simp only [Option.map_none,List.filterMap_cons]
      exact ⟨ih.1.cons _,ih.2⟩
    | some key =>
      simp only [Option.map_some,List.filterMap_cons,List.length_cons]
      exact ⟨ih.1.cons_cons _,by rw [ih.2]⟩

lemma wellFormed_newEpochInfo {crypto : Crypto} {sorter : SortSlice} {ctx : EpochContext} {mixDigest : ℕ}
    {gov : GovView} {info : EpochInfo} (h : newEpochInfo crypto sorter ctx mixDigest gov = .ok info) :
    WellFormed info ∧ info.candidates.map Candidate.addr=gov.candidates := by
  obtain ⟨candidates,hc,h⟩ := bind_eq_ok.mp h
  obtain ⟨vs,hvs,h⟩ := bind_eq_ok.mp h
  obtain ⟨keyed,hk,h⟩ := bind_eq_ok.mp h
  cases h
  have hc := mapM_eq_ok.mp hc
  have haddr : candidates.map Candidate.addr=gov.candidates := by
    have hx := forall₂_eq_map (g := id) ((List.forall₂_map_right_iff (f := Candidate.addr)).mpr
      (hc.imp fun a x hx => (newCandidate_ok hx).1))
    simpa using hx
  have hlen : candidates.length=gov.candidates.length := by simpa using congrArg List.length haddr
  obtain ⟨hnodup,hlt⟩ := decideValidators_ok (by simpa [hlen] using gov.fits) hvs
  obtain ⟨hsub,hkeys⟩ := withKey_ok hk
  refine ⟨⟨haddr ▸ gov.nodup,hnodup.sublist hsub,fun v hv => ?_,hkeys,fun x hx => ?_⟩,haddr⟩
  · simpa using hlt v (hsub.subset hv)
  · obtain ⟨i,hi,rfl⟩ := List.getElem_of_mem hx
    exact (newCandidate_ok (List.Forall₂.get hc (hlen ▸ hi) hi)).2

lemma wellFormed_createInitialEpochInfo {anzeon : AnzeonConfig} {info : EpochInfo}
    (hn : anzeon.initValidators.Nodup) (hfits : anzeon.initValidators.length ≤ 2^32)
    (h : createInitialEpochInfo anzeon = .ok info) : WellFormed info := by
  unfold createInitialEpochInfo at h
  dsimp only at h
  split at h
  · cases h
  · rename_i hkeys
    cases h
    have hmod {i : ℕ} (hi : i<anzeon.initValidators.length) : i%2^32 = i := Nat.mod_eq_of_lt (by omega)
    refine ⟨by simpa [Function.comp_def] using hn,?_,fun v hv => ?_,by simp; omega,fun x hx => ?_⟩
    · refine List.Nodup.map_on (fun i hi j hj heq => ?_) List.nodup_range
      rwa [hmod (List.mem_range.mp hi),hmod (List.mem_range.mp hj)] at heq
    · obtain ⟨i,hi,rfl⟩ := List.mem_map.mp hv
      rw [hmod (List.mem_range.mp hi)]
      simpa using hi
    · obtain ⟨_,_,rfl⟩ := List.mem_map.mp hx
      simp [defaultDiligence,diligenceDenominator]

end StableNet.Engine
