import StableNet.Engine.Finality
import StableNet.Engine.Diligence

/-! Epoch construction over a verified chain: what the loop of `buildEpochInfo` counts, as sums over the blocks of the
epoch. -/
namespace StableNet.Engine
open Chain Wbft Lib Config List
variable {a : Address} {it : Header} {m k : ℕ} {info : EpochInfo}
variable {s : Option WBFTAggregatedSeal} {e : EpochError} {ctx : EpochContext} {j fuel B b₀ : ℕ} {f : ℕ → ℕ}

/-- The signers of the previous seals of a block, under the epoch info of its parent. -/
def prevSigners (info : EpochInfo) (it : Header) : List Address :=
  match it.extractWBFTExtra with
  | none => []
  | some extra => signers (getSignerAddress info extra.prevPreparedSeal) ++
      signers (getSignerAddress info extra.prevCommittedSeal)
where
  signers : Except EpochError (List Address) → List Address
    | .ok l => l
    | .error _ => []

/-- The previous seals of a block have bitsets short enough for their indices to fit `uint32`. -/
def ShortPrevSeals (header : Header) : Prop :=
  ∀ e ∈ header.extractWBFTExtra, (∀ x ∈ e.prevPreparedSeal, x.sealers.length ≤ 2^29) ∧
    ∀ x ∈ e.prevCommittedSeal, x.sealers.length ≤ 2^29

instance (header : Header) : Decidable (ShortPrevSeals header) := by
  unfold ShortPrevSeals
  infer_instance

section Signers

lemma getSigner_ok {idx : ℕ} (h : getSigner info idx = .ok a) : info.getValidators[idx]? = some a := by
  obtain ⟨v,hv,h⟩ := bind_eq_ok.mp h
  obtain ⟨_,h⟩ := ok_of_bind h
  cases h
  simp [EpochInfo.getValidators,orError_eq_ok.mp hv]

theorem getSignerAddress_ok {l : List Address} (hw : WellFormed info)
    (hshort : ∀ x ∈ s, x.sealers.length ≤ 2^29) (h : getSignerAddress info s = .ok l) :
    l.Nodup ∧ l ⊆ info.getValidators := by
  obtain ⟨x,hx,hmap⟩ := bind_eq_ok.mp h
  have hsealers := SealerSet.getSealers_nodup (hshort x (orError_eq_ok.mp hx))
  replace hmap := mapM_eq_ok.mp hmap
  clear h
  generalize SealerSet.getSealers x.sealers = sealers at hmap hsealers
  induction hmap with
  | nil => simp
  | @cons i a sealers l hi hrest ih =>
    obtain ⟨hnot,hsealers⟩ := nodup_cons.mp hsealers
    obtain ⟨hnodup,hsub⟩ := ih hsealers
    have hi := getSigner_ok hi
    refine ⟨nodup_cons.mpr ⟨fun hmem => hnot ?_,hnodup⟩,cons_subset.mpr ⟨mem_of_getElem? hi,hsub⟩⟩
    -- a second index of the same signer would be the same index
    obtain ⟨k,hk,rfl⟩ := getElem_of_mem hmem
    have hj := getSigner_ok (List.Forall₂.get hrest (hrest.length_eq ▸ hk) hk)
    obtain ⟨hi',heq⟩ := List.getElem?_eq_some_iff.mp hi
    obtain ⟨hj',heq'⟩ := List.getElem?_eq_some_iff.mp hj
    have hij := hw.getValidators_nodup.getElem_inj_iff.mp (heq.trans heq'.symm)
    rw [hij]
    exact getElem_mem _

lemma signers_bound (hw : WellFormed info) (hshort : ∀ x ∈ s, x.sealers.length ≤ 2^29) :
    (∀ a, (prevSigners.signers (getSignerAddress info s)).count a ≤ if a ∈ info.getValidators then 1 else 0) ∧
      (prevSigners.signers (getSignerAddress info s)).length ≤ info.validators.length := by
  cases h : getSignerAddress info s with
  | error e => simp [prevSigners.signers]
  | ok l =>
    obtain ⟨hnodup,hsub⟩ := getSignerAddress_ok hw hshort h
    refine ⟨fun a => ?_,?_⟩
    · split
      · exact nodup_iff_count_le_one.mp hnodup a
      · exact (count_eq_zero_of_not_mem fun hmem => ‹¬_› (hsub hmem)).le
    · have := (hnodup.subperm hsub).length_le
      simpa [EpochInfo.getValidators,prevSigners.signers] using this

theorem prevSigners_bound (hw : WellFormed info) (hshort : ShortPrevSeals it) :
    (∀ a, (prevSigners info it).count a ≤ if a ∈ info.getValidators then 2 else 0) ∧
      (prevSigners info it).length ≤ 2*info.validators.length := by
  unfold prevSigners
  cases he : it.extractWBFTExtra with
  | none => simp
  | some extra =>
    obtain ⟨hp,hpl⟩ := signers_bound hw (hshort extra he).1
    obtain ⟨hc,hcl⟩ := signers_bound hw (hshort extra he).2
    refine ⟨fun a => ?_,by simp only [length_append]; omega⟩
    have hp := hp a
    have hc := hc a
    simp only [count_append]
    split at hp <;> simp_all
    omega

end Signers

/-! ### Errors of the counting

Counting the epoch can fail, but not with one of the errors of the diligence. -/

def EpochError.isDiligence : EpochError → Bool
  | .divideByZero | .sealCount | .invalidDiligence _ => true
  | _ => false

/-- A computation whose errors are not of the diligence. -/
abbrev Counts {α : Type} (x : Except EpochError α) : Prop := ErrorsIn (fun e => e.isDiligence=false) x

section Counts

variable {c : Config} {chain : ChainReader}

lemma counts_orError {α : Type} (h : e.isDiligence=false) (x : Option α) : Counts (orError e x) := by
  cases x with
  | none => exact .error h
  | some a => exact .ok a

lemma counts_getSignerAddress (info : EpochInfo) (s : Option WBFTAggregatedSeal) :
    Counts (getSignerAddress info s) := by
  apply ErrorsIn.bind (counts_orError rfl _)
  intro x
  apply ErrorsIn.mapM
  intro i _
  exact .bind (counts_orError rfl _) fun v => .bind (.require rfl) fun _ => .ok _

lemma counts_countSeals (t : Tally) (info : EpochInfo) (extra : WBFTExtra) (proposer : Address) (k : ℕ) :
    Counts (t.countSeals info extra proposer k) := by
  unfold Tally.countSeals
  split
  · exact .ok _
  · exact .bind (counts_getSignerAddress _ _) fun _ => .bind (counts_getSignerAddress _ _) fun _ => .ok _

lemma counts_visit (E : ℕ) (latest : EpochInfo) (it : Header) (t : Tally) : Counts (visit c chain E latest it t) := by
  refine .bind (counts_orError rfl _) fun extra => .bind (counts_orError rfl _) fun parent => .bind ?_ fun info =>
    .bind (counts_countSeals _ _ _ _ _) fun _ => .ok _
  unfold sealedUnder
  split
  · exact .map (counts_orError rfl _)
  · exact .ok _

lemma counts_walk (E : ℕ) (latest : EpochInfo) (fuel : ℕ) (it : Header) (t : Tally) :
    Counts (walk c chain E latest fuel it t) := by
  induction fuel generalizing it t with
  | zero => exact .error rfl
  | succ fuel ih =>
    unfold walk
    split
    · exact .ok _
    · exact .bind (counts_visit E latest it t) fun x => ih x.1 x.2

lemma counts_countRounds (valSet : ValidatorSet) (last proposer : Address) (left round : ℕ) (count : Address → ℤ) :
    Counts (countRounds valSet last proposer left round count) := by
  induction left generalizing round count with
  | zero => exact .error rfl
  | succ left ih =>
    apply ErrorsIn.bind (counts_orError rfl _)
    intro currP
    dsimp only
    split
    · exact .ok _
    · exact ih _ _

lemma counts_countProposers (valSet : ValidatorSet) (proposers : List Address) (last : Address)
    (count : Address → ℤ) : Counts (countProposers valSet proposers last count) := by
  induction proposers generalizing last count with
  | nil => exact .ok _
  | cons p proposers ih => exact .bind (counts_countRounds _ _ _ _ _ _) fun count => ih p count

lemma counts_epochContext (header : Header) : Counts (epochContext c chain header) := by
  refine .bind (counts_orError rfl _) fun x => .bind (counts_walk _ _ _ _ _) fun y => .bind (.require rfl) fun _ =>
    .bind ?_ fun W => .bind (.require rfl) fun _ => .bind (counts_countProposers _ _ _ _) fun _ => .ok _
  unfold priorValidators
  split
  · exact .ok _
  · exact .bind (counts_orError rfl _) fun parent => .bind (counts_orError rfl _) fun _ => .ok _

theorem newEpochInfo_eq_error {crypto : Crypto} {sorter : SortSlice} {mixDigest : ℕ}
    {gov : GovView} (he : e.isDiligence=true) (h : newEpochInfo crypto sorter ctx mixDigest gov = .error e) :
    ∃ a ∈ gov.candidates, ctx.newCandidate a = .error e := by
  rcases bind_eq_error.mp h with h | ⟨candidates,_,h⟩
  · exact exists_of_mapM_eq_error h
  · have hrest : Counts (decideValidators crypto.keccak sorter mixDigest
        (candidates.map fun x => ⟨x.addr,x.diligence,1⟩) >>= fun newValidators =>
          newValidators.mapM (withKey gov candidates) >>= fun keyed =>
            (.ok ⟨candidates,keyed.filterMap (·.map Prod.fst),keyed.filterMap (·.map Prod.snd)⟩ :
              Except EpochError EpochInfo)) := by
      refine .bind (.mapM fun i _ => .bind ?_ fun _ => .bind (counts_orError rfl _) fun _ => .ok _) fun _ =>
        .bind (.mapM fun v _ => .bind (counts_orError rfl _) fun _ => .ok _) fun _ => .ok _
      unfold computeShuffledIndex
      split
      · exact .error rfl
      · exact .ok _
    simp [hrest e h] at he

end Counts

/-- A chain of headers as a node has verified it: the node has the headers below the last one, accepts
every header, and found in each epoch block below the last one the epoch info it builds from the
state after that block. The genesis block has the epoch info of the configuration. -/
structure HeaderChain (v : Verifier) (sorter : SortSlice) (gov : ℕ → GovView) (H : ℕ → Header) (N : ℕ) : Prop where
  number : ∀ k ≤ N, (H k).number = k
  link : ∀ k<N, (H (k+1)).parentHash = (H k).hash
  getHeader : ∀ k<N, v.chain.getHeader (H k).hash k = some (H k)
  getHeaderByNumber : ∀ k<N, v.chain.getHeaderByNumber k = some (H k)
  genesis : ∃ anzeon ∈ v.chain.config.anzeon, anzeon.initValidators.Nodup ∧ anzeon.initValidators.length ≤ 2^32 ∧
    ∃ info, createInitialEpochInfo anzeon = .ok info ∧ extractEpochInfo (H 0) = some (0,info)
  accepts : ∀ k, 0<k → k ≤ N → v.Accepts (H k)
  epochs : ∀ k, 0<k → k<N → v.config.IsEpochBlock k →
    verifyEpoch v.config v.crypto sorter v.chain (H k) (gov k) = .ok ()
  short : ∀ k ≤ N, ShortPrevSeals (H k)

def Verifier.infoOf (v : Verifier) (header : Header) : Option EpochInfo :=
  (getEpochInfoOfHeader v.config v.chain header).map Prod.snd

/-- The signers of the previous seals of the block with a number; the first block has none. -/
def signersAt (v : Verifier) (H : ℕ → Header) (j : ℕ) : List Address :=
  match v.infoOf (H (j-1)) with
  | none => []
  | some info => if j ≤ 1 then [] else prevSigners info (H j)

namespace HeaderChain

variable {v : Verifier} {sorter : SortSlice} {gov : ℕ → GovView} {H : ℕ → Header} {N : ℕ}

section
variable (hc : HeaderChain v sorter gov H N)
include hc

lemma lt_of_accepts (hN : 0<N) : N<2^64 := by
  have hnum := hc.number N le_rfl
  obtain ⟨_,_,_,_,_,hstand,_⟩ := against_of_verifyHeader (by omega) (hc.accepts N hN le_rfl)
  exact hnum ▸ number_of_verifyStandalone hstand

lemma predNumber_eq (hk : k<N) : predNumber (k+1) = k := by
  have := hc.lt_of_accepts (by omega)
  unfold predNumber
  omega

lemma getParent (hk : k<N) : v.chain.getHeader (H (k+1)).parentHash (predNumber (H (k+1)).number) = some (H k) := by
  rw [hc.number _ hk,hc.predNumber_eq hk,hc.link k hk,hc.getHeader k hk]

theorem infoOf_succ {e : ℕ} {b : Bool} (hk : k<N) (he : v.config.isEpochBlockNumber k = some (b,e)) :
    getEpochInfoOfHeader v.config v.chain (H (k+1)) = extractEpochInfo (H e) := by
  have hle := isEpochBlockNumber_le he
  unfold getEpochInfoOfHeader getEpochInfo
  rw [if_neg (by rw [hc.number _ hk]; omega),hc.number _ hk,hc.predNumber_eq hk]
  simp [he,hc.getHeaderByNumber e (by omega)]

lemma infoOf_zero : getEpochInfoOfHeader v.config v.chain (H 0) = extractEpochInfo (H 0) := by
  unfold getEpochInfoOfHeader
  rw [if_pos (hc.number 0 (Nat.zero_le N))]

lemma wellFormed {e : ℕ} (he : e<N) (hepoch : v.config.IsEpochBlock e)
    {x : ℕ × EpochInfo} (hx : extractEpochInfo (H e) = some x) : x.1=e ∧ WellFormed x.2 := by
  have hnum := hc.number e he.le
  have hfst : x.1=e := by
    unfold extractEpochInfo at hx
    simp only [Option.bind_eq_bind,Option.bind_eq_some_iff,Option.pure_def,Option.some.injEq] at hx
    obtain ⟨_,_,_,_,rfl⟩ := hx
    exact hnum
  refine ⟨hfst,?_⟩
  by_cases hzero : e=0
  · subst hzero
    obtain ⟨anzeon,_,hn,hfits,info,hinfo,hgen⟩ := hc.genesis
    rw [hgen,Option.some.injEq] at hx
    subst hx
    exact wellFormed_createInitialEpochInfo hn hfits hinfo
  · obtain ⟨ctx,info,hinfo,hnew⟩ := exists_newEpochInfo_of_verifyEpoch (hc.epochs e (by omega) he hepoch)
      (hnum.symm ▸ hepoch) (hnum.symm ▸ hzero)
    rw [hinfo,Option.some.injEq] at hx
    subst hx
    exact (wellFormed_newEpochInfo hnew).1

end

/-- What visiting the blocks of a list adds to the counters. -/
structure Counted (v : Verifier) (H : ℕ → Header) (t t' : Tally) (js : List ℕ) : Prop where
  length : t'.epochLength = t.epochLength+js.length
  submitted : ∀ a, t'.submittedSealsInEpoch a =
    t.submittedSealsInEpoch a+(js.map fun j => (signersAt v H j).count a).sum
  proposed : ∀ a, t'.proposedSealsInEpoch a = t.proposedSealsInEpoch a +
    (js.map fun j => if (H j).coinbase = a then (signersAt v H j).length else 0).sum
  proposers : t'.proposers = t.proposers++js.map fun j => (H j).coinbase
  being : ∀ a, t'.beingProposerCountInEpoch a =
    t.beingProposerCountInEpoch a-(js.countP fun j => j=1 ∧ (H j).coinbase = a : ℕ)

lemma Counted.refl (t : Tally) : Counted v H t t [] := by
  constructor <;> simp

lemma Counted.cons {t t₁ t₂ : Tally} {js : List ℕ} (h : Counted v H t t₁ [j])
    (h' : Counted v H t₁ t₂ js) : Counted v H t t₂ (j::js) where
  length := by
    have := h.length
    have := h'.length
    simp only [length_cons,length_nil] at *
    omega
  submitted a := by
    rw [h'.submitted,h.submitted]
    simp only [map_cons,map_nil,sum_cons,sum_nil]
    omega
  proposed a := by
    rw [h'.proposed,h.proposed]
    simp only [map_cons,map_nil,sum_cons,sum_nil]
    omega
  proposers := by rw [h'.proposers,h.proposers]; simp
  being a := by
    rw [h'.being,h.being,countP_cons,countP_cons]
    simp only [countP_nil]
    push_cast
    omega

section Loop

variable {E : ℕ} {latest : EpochInfo} {b : Bool} {t t' : Tally}

theorem sealedUnder_ok (hc : HeaderChain v sorter gov H N) (hs : v.config.Sorted)
    (hE : v.config.isEpochBlockNumber (N-1) = some (b,E)) (hx : extractEpochInfo (H E) = some (E,latest))
    (hEk : E ≤ k) (hk : k<N) (h : sealedUnder v.config v.chain E latest (H k) = .ok info) : v.infoOf
    (H k) = some info := by
  unfold sealedUnder at h
  rw [hc.number k hk.le] at h
  unfold Verifier.infoOf
  split at h
  · cases hinfo : getEpochInfoOfHeader v.config v.chain (H k) with
    | none => simp [hinfo,orError,Except.map] at h
    | some x => simpa [hinfo,orError,Except.map] using h
  · cases h
    obtain ⟨m,rfl⟩ : ∃ m, k = m+1 := ⟨k-1,by omega⟩
    rw [hc.infoOf_succ (by omega) (isEpochBlockNumber_of_le hs hE (m := m) (by omega) (by omega)),hx]
    rfl

lemma countSeals_ok {extra : WBFTExtra} {proposer : Address}
    (he : (H (k+1)).extractWBFTExtra = some extra) (hinfo : v.infoOf (H k) = some info)
    (hp : (H (k+1)).coinbase = proposer) (h : t.countSeals info extra proposer k = .ok t') :
    t'.epochLength=t.epochLength ∧ t'.proposers=t.proposers ∧ t'.firstProposer=t.firstProposer ∧
      t'.validatorsDiff=t.validatorsDiff ∧
      (∀ a, t'.submittedSealsInEpoch a = t.submittedSealsInEpoch a+(signersAt v H (k+1)).count a) ∧
      (∀ a, t'.proposedSealsInEpoch a = t.proposedSealsInEpoch a +
        if proposer=a then (signersAt v H (k+1)).length else 0) ∧ ∀ a, t'.beingProposerCountInEpoch a =
        t.beingProposerCountInEpoch a-if k=0 ∧ proposer=a then 1 else 0 := by
  unfold Tally.countSeals at h
  split at h
  · rename_i hk
    cases h
    subst hk
    have hsigners : signersAt v H (0+1) = [] := by simp [signersAt,hinfo]
    simp only [hsigners,bump_apply,count_nil,length_nil,add_zero,ite_self,true_and,implies_true]
    intro a
    by_cases ha : proposer=a
    · simp [ha,sub_eq_add_neg]
    · simp [ha,Ne.symm ha]
  · rename_i hk
    obtain ⟨prepares,hprep,h⟩ := bind_eq_ok.mp h
    obtain ⟨commits,hcom,h⟩ := bind_eq_ok.mp h
    cases h
    have hsigners : signersAt v H (k+1) = prepares++commits := by
      simp [signersAt,hinfo,hk,prevSigners,he,hprep,hcom,prevSigners.signers]
    simp only [Tally.addSigners,hsigners,foldl_bump,bump_apply,count_append,length_append,hk,
      false_and,if_false,sub_zero,true_and,implies_true,and_true]
    constructor
    · intro a
      omega
    · intro a
      by_cases ha : proposer=a
      · simp [ha]
        omega
      · simp [ha,Ne.symm ha]

lemma visit_ok (hc : HeaderChain v sorter gov H N) (hs : v.config.Sorted)
    (hE : v.config.isEpochBlockNumber (N-1) = some (b,E)) (hx : extractEpochInfo (H E) = some (E,latest))
    (hEk : E ≤ k) (hk : k<N) {parent : Header}
    (h : visit v.config v.chain E latest (H (k+1)) t = .ok (parent,t')) : parent = H k ∧ Counted v H t t' [k+1] ∧
      (E=k → ∃ prior, v.infoOf (H E) = some prior ∧ t'.firstProposer = (H (E+1)).coinbase ∧
        t'.validatorsDiff = latest.validators.length-prior.validators.length) := by
  obtain ⟨extra,hextra,h⟩ := bind_eq_ok.mp h
  obtain ⟨p,hp,h⟩ := bind_eq_ok.mp h
  rw [orError_eq_ok,hc.getParent hk,Option.some.injEq] at hp
  subst hp
  obtain ⟨info,hinfo,h⟩ := bind_eq_ok.mp h
  have hinfo := hc.sealedUnder_ok hs hE hx hEk hk hinfo
  dsimp only at h
  rw [hc.number k hk.le] at h
  obtain ⟨t₁,ht₁,h⟩ := bind_eq_ok.mp h
  cases h
  obtain ⟨hlen,hprop,hfirst,hdiff,hsub,hpro,hbeing⟩ := countSeals_ok (orError_eq_ok.mp hextra) hinfo rfl ht₁
  refine ⟨rfl,⟨?_,fun a => ?_,fun a => ?_,?_,fun a => ?_⟩,fun hEq => ⟨info,hEq ▸ hinfo,?_,?_⟩⟩
  · simp only [hlen,length_singleton]
    split <;> rfl
  · simp only [hsub,map_singleton,sum_singleton]
    split <;> rfl
  · simp only [hpro,map_singleton,sum_singleton]
    split <;> rfl
  · simp only [hprop,map_singleton]
    split <;> rfl
  · simp only [hbeing,countP_singleton]
    split <;> simp [Tally.atBoundary]
  · subst hEq
    simp [hfirst,Tally.atBoundary]
  · subst hEq
    simp [hdiff,Tally.atBoundary]

/-- The blocks above `E`, downwards. -/
def blocksDown (E : ℕ) : ℕ → List ℕ
  | 0 => []
  | m+1 => (E+m+1)::blocksDown E m

lemma walk_epoch {epochHeader : Header} (hnum : epochHeader.number=E)
    (h : walk v.config v.chain E latest fuel epochHeader t = .ok (it,t')) : it=epochHeader ∧ t'=t := by
  cases fuel with
  | zero => cases h
  | succ fuel =>
    rw [walk,if_pos hnum.symm] at h
    cases h
    exact ⟨rfl,rfl⟩

theorem walk_ok (hc : HeaderChain v sorter gov H N) (hs : v.config.Sorted)
    (hE : v.config.isEpochBlockNumber (N-1) = some (b,E)) (hx : extractEpochInfo (H E) = some (E,latest))
    (hm : E+m ≤ N) (h : walk v.config v.chain E latest fuel (H (E+m)) t = .ok (it,t')) :
    it = H E ∧ Counted v H t t' (blocksDown E m) ∧
      (0 < m → ∃ prior, v.infoOf (H E) = some prior ∧ t'.firstProposer = (H (E+1)).coinbase ∧
        t'.validatorsDiff = latest.validators.length-prior.validators.length) := by
  induction m generalizing fuel t with
  | zero =>
    obtain ⟨rfl,rfl⟩ := walk_epoch (hc.number E (by omega)) h
    exact ⟨rfl,.refl t',fun h => absurd h (lt_irrefl 0)⟩
  | succ m ih =>
    cases fuel with
    | zero => cases h
    | succ fuel =>
      rw [walk,if_neg (by rw [hc.number _ hm]; omega)] at h
      obtain ⟨⟨parent,t₁⟩,hv,h⟩ := bind_eq_ok.mp h
      obtain ⟨rfl,hcount,hfirst⟩ := hc.visit_ok hs hE hx (k := E+m) (by omega) (by omega) hv
      obtain ⟨rfl,hrest,hbound⟩ := ih (by omega) h
      refine ⟨rfl,hcount.cons hrest,fun _ => ?_⟩
      by_cases hz : m=0
      · subst hz
        obtain ⟨_,rfl⟩ := walk_epoch (hc.number E (by omega)) h
        exact hfirst rfl
      · exact hbound (by omega)

@[simp] lemma length_blocksDown (E m : ℕ) : (blocksDown E m).length = m := by
  induction m with
  | zero => rfl
  | succ m ih => simp [blocksDown,ih]

lemma sum_blocksDown_le (hm : 0 < m) (hB : ∀ j, E+1<j → j ≤ E+m → f j ≤ B)
    (hb : f (E+1) ≤ b₀) : ((blocksDown E m).map f).sum ≤ B*(m-1)+b₀ := by
  induction m with
  | zero => omega
  | succ m ih =>
    simp only [blocksDown,map_cons,sum_cons]
    by_cases hz : m=0
    · subst hz
      simpa [blocksDown] using hb
    · have := ih (by omega) fun j hj hle => hB j hj (by omega)
      have := hB (E+m+1) (by omega) (by omega)
      obtain ⟨m',rfl⟩ : ∃ m', m = m'+1 := ⟨m-1,by omega⟩
      simp only [Nat.add_sub_cancel,Nat.mul_succ] at *
      omega

theorem sum_proposed_le (proposer : ℕ → Address) (hm : 0 < m)
    (hB : ∀ j, E+1<j → j ≤ E+m → f j ≤ B) (hb : f (E+1) ≤ b₀) :
    ((blocksDown E m).map fun j => if proposer j=a then f j else 0).sum+(if proposer (E+1) = a then B else 0) ≤
      B*((blocksDown E m).map proposer).count a+if proposer (E+1) = a then b₀ else 0 := by
  induction m with
  | zero => omega
  | succ m ih =>
    simp only [blocksDown,map_cons,sum_cons,count_cons,beq_iff_eq]
    by_cases hz : m=0
    · subst hz
      simp only [blocksDown,map_nil,sum_nil,count_nil,Nat.add_zero,Nat.zero_add]
      split
      · omega
      · omega
    · have := ih (by omega) fun j hj hle => hB j hj (by omega)
      have := hB (E+m+1) (by omega) (by omega)
      rw [Nat.mul_add]
      by_cases hp : proposer (E+m+1) = a
      · simp only [hp,if_true,Nat.mul_one]
        omega
      · simp only [hp,if_false,Nat.mul_zero]
        omega

lemma countP_blocksDown (proposer : ℕ → Address) (hm : 0 < m) :
    (blocksDown E m).countP (fun j => j=1 ∧ proposer j=a) = if E=0 ∧ proposer (E+1) = a then 1 else 0 := by
  induction m with
  | zero => omega
  | succ m ih =>
    rw [blocksDown,countP_cons]
    by_cases hz : m=0
    · subst hz
      simp [blocksDown]
    · rw [ih (by omega)]
      simp [hz]

end Loop

/-- The epoch that ends with the block `N`: its epoch block, the epoch info written there, and the
epoch info the epoch block itself is under. -/
structure Span (v : Verifier) (H : ℕ → Header) (N E : ℕ) (latest prior : EpochInfo) : Prop where
  pos : 0<N
  last : ∃ b, v.config.isEpochBlockNumber (N-1) = some (b,E)
  latest : v.infoOf (H N) = some latest
  prior : v.infoOf (H E) = some prior

/-- The previous seals that the first block of an epoch may carry; the genesis block has none. -/
def boundarySeals (E : ℕ) (prior : EpochInfo) : ℕ := if E=0 then 0 else 2*prior.validators.length

section Span

variable {E : ℕ} {latest prior : EpochInfo}

lemma Span.lt (hsp : Span v H N E latest prior) : E<N := by
  obtain ⟨b,hb⟩ := hsp.last
  have := isEpochBlockNumber_le hb
  have := hsp.pos
  omega

section
variable (hc : HeaderChain v sorter gov H N) (hs : v.config.Sorted)
include hc hs

lemma Span.extract
    (hsp : Span v H N E latest prior) : extractEpochInfo (H E) = some (E,latest) ∧ WellFormed latest := by
  obtain ⟨b,hb⟩ := hsp.last
  have hpos := hsp.pos
  have hlatest := hsp.latest
  unfold Verifier.infoOf at hlatest
  obtain ⟨m,rfl⟩ : ∃ m, N = m+1 := ⟨N-1,by omega⟩
  rw [hc.infoOf_succ (k := m) (by omega) hb,Option.map_eq_some_iff] at hlatest
  obtain ⟨x,hx,rfl⟩ := hlatest
  obtain ⟨rfl,hw⟩ := hc.wellFormed hsp.lt (isEpochBlock_last hs hb) hx
  exact ⟨hx,hw⟩

lemma wellFormed_infoOf (hk : k ≤ N) (h : v.infoOf (H k) = some info) : WellFormed info := by
  obtain ⟨x,hx,rfl⟩ := Option.map_eq_some_iff.mp h
  cases k with
  | zero =>
    obtain ⟨anzeon,_,hn,hfits,info,hinfo,hgen⟩ := hc.genesis
    rw [hc.infoOf_zero,hgen,Option.some.injEq] at hx
    subst hx
    exact wellFormed_createInitialEpochInfo hn hfits hinfo
  | succ k =>
    cases he : v.config.isEpochBlockNumber k with
    | none =>
      unfold getEpochInfoOfHeader getEpochInfo at hx
      rw [if_neg (by rw [hc.number _ hk]; omega),hc.number _ hk,hc.predNumber_eq (by omega)] at hx
      simp [he] at hx
    | some y =>
      rw [hc.infoOf_succ (by omega) (b := y.1) (e := y.2) he] at hx
      have hle := isEpochBlockNumber_le (b := y.1) (e := y.2) he
      exact (hc.wellFormed (by omega) (isEpochBlock_last hs (b := y.1) he) hx).2

section
variable (hsp : Span v H N E latest prior)
include hsp

lemma Span.infoOf_inner (hEk : E<k) (hk : k ≤ N) : v.infoOf (H k) = some latest := by
  obtain ⟨b,hb⟩ := hsp.last
  obtain ⟨m,rfl⟩ : ∃ m, k = m+1 := ⟨k-1,by omega⟩
  unfold Verifier.infoOf
  rw [hc.infoOf_succ (by omega) (isEpochBlockNumber_of_le hs hb (m := m) (by omega) (by omega)),
    (hsp.extract hc hs).1]
  rfl

lemma Span.signers_inner (hEj : E+1<j) (hj : j ≤ N) :
    (∀ a, (signersAt v H j).count a ≤ if a ∈ latest.getValidators then 2 else 0) ∧
      (signersAt v H j).length ≤ 2*latest.validators.length := by
  unfold signersAt
  rw [hsp.infoOf_inner hc hs (by omega) (by omega)]
  dsimp only
  rw [if_neg (by omega)]
  exact prevSigners_bound (hsp.extract hc hs).2 (hc.short j hj)

lemma Span.signers_first : (∀ a, (signersAt v H (E+1)).count a ≤ if E≠0 ∧ a ∈ prior.getValidators then 2 else 0) ∧
      (signersAt v H (E+1)).length ≤ boundarySeals E prior := by
  have hlt := hsp.lt
  unfold signersAt boundarySeals
  rw [Nat.add_sub_cancel,hsp.prior]
  dsimp only
  by_cases hz : E=0
  · simp [hz]
  · rw [if_neg (by omega),if_neg hz]
    have := prevSigners_bound (hc.wellFormed_infoOf hs hlt.le hsp.prior) (hc.short (E+1) hlt)
    simpa [hz] using this

end

end

/-- The validators taken for those of the epoch before: the ones the parent of the epoch block is
under. -/
def PriorValidators (v : Verifier) (H : ℕ → Header) (E : ℕ) (W : List Address) : Prop :=
  if E=0 then W = [] else ∃ info, v.infoOf (H (E-1)) = some info ∧ W = info.getValidators

lemma PriorValidators.unique {W W' : List Address} (h : PriorValidators v H E W) (h' : PriorValidators v H E W') :
    W=W' := by
  unfold PriorValidators at h h'
  split at h
  · rw [if_pos ‹_›] at h'
    rw [h,h']
  · rw [if_neg ‹_›] at h'
    obtain ⟨info,hinfo,heq⟩ := h
    obtain ⟨info',hinfo',heq'⟩ := h'
    rw [heq,heq',Option.some.inj (hinfo.symm.trans hinfo')]

lemma priorValidators_ok (hc : HeaderChain v sorter gov H N) (hE : E<N) {W : List Address}
    (h : priorValidators v.config v.chain (H E) = .ok W) : PriorValidators v H E W := by
  unfold PriorValidators
  unfold priorValidators at h
  rw [hc.number E hE.le] at h
  cases E with
  | zero =>
    cases h
    rfl
  | succ k =>
    rw [if_neg (Nat.succ_ne_zero k)] at h ⊢
    have hparent := hc.getParent (k := k) (by omega)
    rw [hc.number _ hE.le] at hparent
    obtain ⟨p,hp,h⟩ := bind_eq_ok.mp h
    rw [orError_eq_ok,hparent,Option.some.injEq] at hp
    subst hp
    obtain ⟨z,hz,h⟩ := bind_eq_ok.mp h
    cases h
    exact ⟨z.2,by simp [Verifier.infoOf,orError_eq_ok.mp hz],rfl⟩

lemma countProposers_size {valSet : ValidatorSet} {proposers : List Address} {lastProposer : Address}
    {count count' : Address → ℤ} (hne : proposers ≠ [])
    (h : countProposers valSet proposers lastProposer count = .ok count') : 0<valSet.size := by
  cases proposers with
  | nil => exact absurd rfl hne
  | cons p proposers =>
    obtain ⟨count₁,h₁,_⟩ := bind_eq_ok.mp h
    cases hsize : valSet.size with
    | zero =>
      rw [hsize] at h₁
      cases h₁
    | succ n => omega

/-- What has been counted when the candidates are gone through. -/
structure Tallied (v : Verifier) (H : ℕ → Header) (N E : ℕ) (latest prior : EpochInfo) (ctx : EpochContext) : Prop where
  latest_eq : ctx.latest=latest
  prior_eq : PriorValidators v H E ctx.prior
  counted : Counted v H .empty ctx.tally (blocksDown E (N-E))
  firstProposer : ctx.tally.firstProposer = (H (E+1)).coinbase
  validatorsDiff : ctx.tally.validatorsDiff = latest.validators.length-prior.validators.length
  turns_ge : ∀ a, ctx.tally.beingProposerCountInEpoch a+ctx.tally.proposers.count a ≤ ctx.beingProposerCount a
  turns_le : ∀ a, ctx.beingProposerCount a ≤
    ctx.tally.beingProposerCountInEpoch a+ctx.tally.proposers.length*latest.validators.length
  validators_pos : 0<latest.validators.length

lemma epochContext_ok (hc : HeaderChain v sorter gov H N) (hs : v.config.Sorted)
    (hsp : Span v H N E latest prior) (h : epochContext v.config v.chain (H N) = .ok ctx) :
    Tallied v H N E latest prior ctx := by
  have hlt := hsp.lt
  obtain ⟨hx,hw⟩ := hsp.extract hc hs
  obtain ⟨b,hb⟩ := hsp.last
  obtain ⟨y,hy,h⟩ := bind_eq_ok.mp h
  have hy := orError_eq_ok.mp hy
  obtain rfl : y = (E,latest) := by
    obtain ⟨m,rfl⟩ : ∃ m, N = m+1 := ⟨N-1,by omega⟩
    rw [hc.infoOf_succ (k := m) (by omega) hb,hx,Option.some.injEq] at hy
    exact hy.symm
  obtain ⟨⟨it,tally⟩,hwalk,h⟩ := bind_eq_ok.mp h
  obtain ⟨m,rfl⟩ : ∃ m, N = E+m := ⟨N-E,by omega⟩
  obtain ⟨rfl,hcount,hbound⟩ := hc.walk_ok hs hb hx le_rfl hwalk
  obtain ⟨prior',hprior',hfirst,hdiff⟩ := hbound (by omega)
  obtain rfl : prior=prior' := Option.some.inj (hsp.prior.symm.trans hprior')
  obtain ⟨_,h⟩ := ok_of_bind h
  obtain ⟨W,hW,h⟩ := bind_eq_ok.mp h
  obtain ⟨_,h⟩ := ok_of_bind h
  obtain ⟨count,hturns,h⟩ := bind_eq_ok.mp h
  cases h
  have hsize : (ValidatorSet.newSet latest.getValidators latest.blsPublicKeys
      (v.config.getConfig (H (E+m)).number).proposerPolicy).size = latest.validators.length := by
    simp [ValidatorSet.newSet,ValidatorSet.newDefaultSet,ValidatorSet.size,EpochInfo.getValidators,hw.keys]
  have hbounds := fun a => countProposers_bounds hturns a
  refine ⟨rfl,hc.priorValidators_ok hlt hW,by simpa using hcount,hfirst,hdiff,fun a => ?_,fun a => ?_,?_⟩
  · have := (hbounds a).1
    simpa using this
  · have := (hbounds a).2
    rw [hsize] at this
    simpa using this
  · rw [← hsize]
    refine countProposers_size (fun hnil => ?_) hturns
    have hlen := congrArg List.length hcount.proposers
    simp [reverse_eq_nil_iff.mp hnil,Tally.empty] at hlen
    omega

end Span

end HeaderChain

end StableNet.Engine
