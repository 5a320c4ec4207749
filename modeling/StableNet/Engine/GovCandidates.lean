import StableNet.Engine.DiligenceRange
import StableNet.Genesis.Registries

/-! The validators of an epoch come from the registry of `GovValidator`: every candidate with a key becomes a
validator. -/
namespace StableNet.Engine
open Chain Wbft Lib

lemma mem_decideValidators {keccak : Bytes → ℕ} {s : SortSlice} {mixDigest : ℕ} {stakers : List PoweredCandidate}
    {vs : List ℕ} (hfits : stakers.length ≤ 2^32) (h : decideValidators keccak s mixDigest stakers = .ok vs)
    {v : ℕ} (hv : v<stakers.length) : v ∈ vs := ((perm_range_iff h).mpr hfits).mem_iff.mpr (List.mem_range.mpr hv)

lemma validators_ne_nil {crypto : Crypto} {sorter : SortSlice} {ctx : EpochContext} {mixDigest : ℕ} {gov : GovView}
    {info : EpochInfo} (h : newEpochInfo crypto sorter ctx mixDigest gov = .ok info) {a : Address}
    (ha : a ∈ gov.candidates) (hkey : gov.blsPublicKey a≠none) : info.validators ≠ [] := by
  have haddr := (wellFormed_newEpochInfo h).2
  obtain ⟨candidates,_,h⟩ := bind_eq_ok.mp h
  obtain ⟨vs,hvs,h⟩ := bind_eq_ok.mp h
  obtain ⟨keyed,hk,h⟩ := bind_eq_ok.mp h
  cases h
  have haddr : candidates.map Candidate.addr=gov.candidates := haddr
  have hlen : candidates.length=gov.candidates.length := by simpa using congrArg List.length haddr
  obtain ⟨i,hi⟩ := List.mem_iff_getElem?.mp (haddr ▸ ha)
  obtain ⟨x,hx,rfl⟩ := Option.map_eq_some_iff.mp (List.getElem?_map.symm.trans hi)
  obtain ⟨key,hkey⟩ := Option.ne_none_iff_exists'.mp hkey
  have hv : i ∈ vs := mem_decideValidators (by simpa [hlen] using gov.fits) hvs
    (by simpa using (List.getElem?_eq_some_iff.mp hx).1)
  obtain ⟨j,hj,rfl⟩ := List.getElem_of_mem hv
  have hk := mapM_eq_ok.mp hk
  have hpick := List.Forall₂.get hk hj (hk.length_eq ▸ hj)
  have hpick : keyed.get ⟨j,hk.length_eq ▸ hj⟩ = some (vs[j],key) := by
    simpa [withKey,hx,orError,hkey,bind,Except.bind,pure,Except.pure,eq_comm] using hpick
  exact List.ne_nil_of_mem (List.mem_filterMap.mpr ⟨_,List.get_mem _ _,by rw [hpick]; rfl⟩)

open Gov Genesis

/-- `GetBLSPublicKey`, where a missing key is empty. -/
def blsPublicKeyOf (blsKey : Bytes) : Option PublicKey := if blsKey = [] then none else some (BigEndian.decode blsKey)

structure Reads (r : Registry) (gov : GovView) : Prop where
  candidates : gov.candidates=r.validators.values
  blsPublicKey : ∀ a, gov.blsPublicKey a = blsPublicKeyOf (r.validatorToBlsKey a)

def viewOf (r : Registry) (hfits : r.validators.values.length ≤ 2^32) : GovView where
  candidates := r.validators.values
  nodup := r.validators.indexed.nodup
  fits := hfits
  blsPublicKey a := blsPublicKeyOf (r.validatorToBlsKey a)

lemma reads_viewOf (r : Registry) (hfits : r.validators.values.length ≤ 2^32) : Reads r (viewOf r hfits) :=
  ⟨rfl,fun _ => rfl⟩

/-- The contract after a block, from the calls that each block makes to it. -/
def contractAfter (blsPoP : Bytes → Option Bool) (blocks : ℕ → List (ℕ × Call ValidatorOp))
    (s : Contract ValidatorAction Registry) : ℕ → Contract ValidatorAction Registry
  | 0 => s
  | k+1 => runCalls (govValidator blsPoP) (blocks (k+1)) (contractAfter blsPoP blocks s k)

/-- A verified chain whose states hold the contract; the last block is verified like those before it. -/
structure GovernedChain (v : Verifier) (sorter : SortSlice) (contract : ℕ → Contract ValidatorAction Registry)
    (gov : ℕ → GovView) (H : ℕ → Header) (N : ℕ) : Prop where
  headers : HeaderChain v sorter gov H N
  last : 0<N → v.config.IsEpochBlock N →
    verifyEpoch v.config v.crypto sorter v.chain (H N) (gov N) = .ok ()
  reads : ∀ k ≤ N, Reads (contract k).own (gov k)

section
variable {v : Verifier} {sorter : SortSlice} {contract : ℕ → Contract ValidatorAction Registry} {gov : ℕ → GovView}
  {H : ℕ → Header} {N k : ℕ}

section
variable (hc : GovernedChain v sorter contract gov H N) (hpos : 0<k) (hk : k ≤ N) (hepoch : v.config.IsEpochBlock k)
include hc hpos hk hepoch

lemma GovernedChain.verified : verifyEpoch v.config v.crypto sorter v.chain (H k) (gov k) = .ok () := by
  rcases Nat.lt_or_eq_of_le hk with hlt | rfl
  · exact hc.headers.epochs k hpos hlt hepoch
  · exact hc.last hpos hepoch

lemma GovernedChain.exists_epochInfo {a : Address} (ha : a ∈ (contract k).own.keyed) :
    ∃ info, extractEpochInfo (H k) = some (k,info) ∧ info.validators ≠ [] ∧
      info.blsPublicKeys.length = info.validators.length := by
  have hnum := hc.headers.number k hk
  obtain ⟨ctx,info,hinfo,hnew⟩ := exists_newEpochInfo_of_verifyEpoch (hc.verified hpos hk hepoch)
    (hnum.symm ▸ hepoch) (by omega)
  obtain ⟨hmem,hkey⟩ := Registry.mem_keyed.mp ha
  have hreads := hc.reads k hk
  rw [hnum] at hinfo
  refine ⟨info,hinfo,validators_ne_nil hnew (hreads.candidates ▸ hmem) ?_,(wellFormed_newEpochInfo hnew).1.keys⟩
  rw [hreads.blsPublicKey,blsPublicKeyOf,if_neg hkey]
  exact Option.some_ne_none _

end

lemma contractAfter_invariant {blsPoP : Bytes → Option Bool} {blocks : ℕ → List (ℕ × Call ValidatorOp)}
    {s : Contract ValidatorAction Registry} {P : Contract ValidatorAction Registry → Prop}
    (hrun : ∀ calls s, P s → P (runCalls (govValidator blsPoP) calls s)) (h : P s) (k : ℕ) :
    P (contractAfter blsPoP blocks s k) := by
  induction k with
  | zero => exact h
  | succ k ih => exact hrun _ _ ih

end

/-- From unambiguous parameters whose keys have their length, there is a view of the contract after every
block: its candidates are distinct, and their indices fit. -/
theorem fits_contractAfter {blsPoP : Bytes → Option Bool} {blocks : ℕ → List (ℕ × Call ValidatorOp)} {address : Address}
    {param : Genesis.Params} {states : List StateParam} (hgenesis : initializeValidator address param = .ok states)
    (hu : Unambiguous (listedEntries param))
    (hlength : ∀ e, IsFirst (listedEntries param) e → e.blsKey.length=Registry.blsPublicKeyLength) (k : ℕ) :
    (contractAfter blsPoP blocks (genesisValidator hgenesis) k).own.validators.values.length ≤ 2^32 := by
  obtain ⟨c,hc,hgov⟩ := gov_genesisValidator hgenesis
  have hroll : Roll (contractAfter blsPoP blocks (genesisValidator hgenesis) k).gov.roster :=
    contractAfter_invariant (P := fun s => Roll s.gov.roster) (fun calls _ => rosterInvariant_roll.runCalls calls)
      (hgov ▸ roll_base hc) k
  have hpaired : Paired (contractAfter blsPoP blocks (genesisValidator hgenesis) k).gov.active
      (contractAfter blsPoP blocks (genesisValidator hgenesis) k).own :=
    contractAfter_invariant (P := fun s => Paired s.gov.active s.own)
      (fun calls _ => (preservesMembers_paired blsPoP).runCalls calls)
      (paired_genesisValidator hgenesis hu hlength) k
  exact (hpaired.length_le hroll).trans (by norm_num)

/-- In a chain whose genesis block has a validator and whose registry starts with a key, if every removal
of an operator leaves another validator with a key, then each epoch block has a validator, and a key for
each validator. -/
theorem epoch_has_validator {v : Verifier} {sorter : SortSlice} {blsPoP : Bytes → Option Bool} {address : Address}
    {param : Genesis.Params} {states : List StateParam} {blocks : ℕ → List (ℕ × Call ValidatorOp)} {gov : ℕ → GovView}
    {H : ℕ → Header} {N : ℕ} (hgenesis : initializeValidator address param = .ok states)
    (hc : GovernedChain v sorter (contractAfter blsPoP blocks (genesisValidator hgenesis)) gov H N)
    (hinit : ∀ anzeon ∈ v.chain.config.anzeon, anzeon.initValidators ≠ [])
    (hkeyed : (genesisValidator hgenesis).own.keyed ≠ [])
    (hremovals : ∀ k ≤ N, ∀ x ∈ (contractAfter blsPoP blocks (genesisValidator hgenesis) k).own.removals, x.Safe)
    {k : ℕ} (hk : k ≤ N) (hepoch : v.config.IsEpochBlock k) :
    ∃ info, extractEpochInfo (H k) = some (k,info) ∧ info.validators ≠ [] ∧
      info.blsPublicKeys.length = info.validators.length := by
  by_cases hzero : k=0
  · subst hzero
    obtain ⟨anzeon,hanzeon,hn,hfits,info,hinfo,hextract⟩ := hc.headers.genesis
    refine ⟨info,hextract,?_,(wellFormed_createInitialEpochInfo hn hfits hinfo).keys⟩
    unfold createInitialEpochInfo at hinfo
    dsimp only at hinfo
    split at hinfo
    · cases hinfo
    · cases hinfo
      simpa using hinit anzeon hanzeon
  · have hstaffed : (contractAfter blsPoP blocks (genesisValidator hgenesis) k).own.Staffed :=
      contractAfter_invariant (P := fun s => s.own.Staffed) (fun calls _ => (preserves_staffed blsPoP).runCalls calls)
        (fun _ => List.exists_mem_of_ne_nil _ hkeyed) k
    obtain ⟨a,ha⟩ := hstaffed (hremovals k hk)
    exact hc.exists_epochInfo (Nat.pos_of_ne_zero hzero) hk hepoch ha

namespace LeavingOperator
open ShrinkingSet (extra header sorter)

def address : Address := 0x1001

def keyText (last : String) : String :=
  "0xb1ae18fdcbcc6a80d7a0c4cfec1a04bc1bee78e519eaadd689108077d946e0849a2c30ac96462be32023f34ca67ebcf" ++ last

def key (last : ℕ) : PublicKey :=
  0xb1ae18fdcbcc6a80d7a0c4cfec1a04bc1bee78e519eaadd689108077d946e0849a2c30ac96462be32023f34ca67ebcf0+last

/-- Two members operate a validator each, or one member operates the only validator. -/
def param (two : Bool) : Genesis.Params
  | "members" => some (if two then "a1,a2" else "a1")
  | "quorum" => some (if two then "2" else "1")
  | "expiry" => some "604800"
  | "memberVersion" => some "1"
  | "validators" => some (if two then "e1,e2" else "e1")
  | "blsPublicKeys" => some (if two then keyText "1" ++ "," ++ keyText "2" else keyText "1")
  | _ => none

def entry (n : ℕ) : ValidatorEntry := ⟨BitVec.ofNat 160 (0xa0+n),BitVec.ofNat 160 (0xe0+n),BigEndian.encode 48 (key n)⟩

def entries (two : Bool) : List ValidatorEntry := if two then [entry 1,entry 2] else [entry 1]

def states (two : Bool) : List StateParam :=
  BaseConfig.states ⟨(entries two).length,some 604800,some (1,(entries two).map ValidatorEntry.member),3⟩ address ++
    registryParams address initialGasTip (entries two)

lemma initialized (two : Bool) : initializeValidator address (param two) = .ok (states two) := by
  obtain ⟨a,ha,hstates⟩ := exists_of_holds (x := initializeValidator address (param two)) (P := fun a => a=states two)
    (by cases two <;> decide +kernel)
  rw [ha,of_decide_eq_true hstates]

/-- Of two operators, the first is removed by both. The only operator brings in a member that operates
nothing, and leaves with its approval. -/
def blocks (two : Bool) : ℕ → List (ℕ × Call ValidatorOp)
  | 1 => if two then [(1000,.mk 0xa2 (.proposeRemoveMember 0xa1 1) []),(1000,.mk 0xa1 (.approveProposal 1) [])]
    else [(1000,.mk 0xa1 (.proposeAddMember 0xa2 2) []),(1000,.mk 0xa2 (.proposeRemoveMember 0xa1 1) []),
      (1000,.mk 0xa1 (.approveProposal 2) [])]
  | _ => []

def contract (two : Bool) : ℕ → Contract ValidatorAction Registry :=
  contractAfter (fun _ => some true) (blocks two) (genesisValidator (initialized two))

lemma listed (two : Bool) : listedEntries (param two) = entries two := by cases two <;> decide +kernel

lemma isFirst {two : Bool} {e : ValidatorEntry} (h : IsFirst (listedEntries (param two)) e) :
    e = entry 1 ∨ e = entry 2 := by
  have h := h.mem
  rw [listed] at h
  cases two
  · exact .inl (List.mem_singleton.mp h)
  · exact List.mem_pair.mp h

lemma unambiguous (two : Bool) : Unambiguous (listedEntries (param two)) where
  validator_ne e he := by rcases isFirst he with rfl | rfl <;> decide
  member_inj e e' he he' := by
    rcases isFirst he with rfl | rfl <;> rcases isFirst he' with rfl | rfl <;> decide
  key_length e he := by rcases isFirst he with rfl | rfl <;> decide +kernel
  key_inj e e' he he' := by
    rcases isFirst he with rfl | rfl <;> rcases isFirst he' with rfl | rfl <;> decide +kernel

def gov (two : Bool) (k : ℕ) : GovView :=
  viewOf (contract two k).own (fits_contractAfter (initialized two) (unambiguous two)
    (fun e he => by rcases isFirst he with rfl | rfl <;> decide +kernel) k)

def anzeon (two : Bool) : AnzeonConfig :=
  ⟨(entries two).map ValidatorEntry.validator,if two then [key 1,key 2] else [key 1],true⟩

def genesisInfo (two : Bool) : EpochInfo :=
  ⟨(anzeon two).initValidators.map (⟨·,defaultDiligence⟩),List.range (entries two).length,
    (anzeon two).initBLSPublicKeys⟩

/-- The second validator is left, or none. -/
def nextInfo (two : Bool) : EpochInfo := if two then ⟨[⟨0xe2,1855000⟩],[0],[key 2]⟩ else ⟨[],[],[]⟩

def sealers (two : Bool) : Option (BitVec 8) := some (if two then 0b11 else 0b1)

def genesis (two : Bool) : Header := header 0 .zero 0 (extra none none (some (genesisInfo two)))

def block1 (two : Bool) : Header := header 1 (genesis two).hash 0xe1 (extra none (sealers two) none)

def block2 (two : Bool) : Header :=
  header 2 (block1 two).hash 0xe1 (extra (sealers two) (sealers two) (some (nextInfo two)))

def H (two : Bool) : ℕ → Header
  | 0 => genesis two
  | 1 => block1 two
  | _ => block2 two

/-- A node with the chain; an aggregate verifies if the validators have sealed the message. -/
def node (two : Bool) : Verifier where
  config := ⟨1,.roundRobin,2,0,[]⟩
  crypto :=
    { verifyAggregate := fun keys pre _ =>
        keys = (anzeon two).initBLSPublicKeys && [block1 two,block2 two].any fun block =>
        pre = prepareSeal block 0 .prepare || pre = prepareSeal block 0 .commit
      checkSig := fun _ _ _ => true
      keccak := fun _ => 0 }
  chain :=
    { config := ⟨some 0,none,none,some (anzeon two)⟩
      getHeader := fun hash number => [genesis two,block1 two].find? fun h => h.hash=hash ∧ h.number=number
      getHeaderByNumber := fun number => [genesis two,block1 two].find? fun h => h.number=number
      stateAt := fun _ => some ⟨fun _ => false,some 1⟩ }
  now := 10

lemma headers (two : Bool) : HeaderChain (node two) sorter (gov two) (H two) 2 where
  number k hk := by interval_cases k <;> rfl
  link k hk := by interval_cases k <;> rfl
  getHeader k hk := by cases two <;> interval_cases k <;> decide +kernel
  getHeaderByNumber k hk := by cases two <;> interval_cases k <;> decide +kernel
  genesis := ⟨anzeon two,rfl,by cases two <;> decide,by cases two <;> decide,genesisInfo two,by cases two <;> rfl,rfl⟩
  accepts k hpos hk := by cases two <;> interval_cases k <;> decide +kernel
  epochs k hpos hk he := by
    obtain rfl : k=1 := by omega
    exact absurd he (by cases two <;> decide)
  short k hk := by cases two <;> interval_cases k <;> decide

lemma governed (two : Bool) : GovernedChain (node two) sorter (contract two) (gov two) (H two) 2 where
  headers := headers two
  last _ _ := by
    obtain ⟨_,h,_⟩ := exists_of_holds (x := verifyEpoch (node two).config (node two).crypto sorter (node two).chain
      (H two 2) (gov two 2)) (P := fun _ => true) (by cases two <;> decide +kernel)
    exact h
  reads _ _ := reads_viewOf _ _

lemma initValidators (two : Bool) : ∀ anzeon ∈ (node two).chain.config.anzeon, anzeon.initValidators ≠ [] := by
  rintro _ ⟨rfl⟩
  cases two <;> decide

lemma keyed (two : Bool) : (genesisValidator (initialized two)).own.keyed ≠ [] := by cases two <;> decide +kernel

lemma isEpochBlock2 (two : Bool) : (node two).config.IsEpochBlock 2 := by cases two <;> decide

lemma removals_zero : (contract true 0).own.removals = [] := by decide +kernel

lemma removals (k : ℕ) : (contract true (k+1)).own.removals = [⟨0xe1,[0xe1,0xe2]⟩] := by
  induction k with
  | zero => decide +kernel
  | succ k ih => exact ih

/-- With two operators the removal of one is safe, and the epoch block that follows keeps the other's validator. -/
theorem epoch_after_removal : (contract true 2).own.removals = [⟨0xe1,[0xe1,0xe2]⟩] ∧
    ∃ info, extractEpochInfo (H true 2) = some (2,info) ∧ info.validators ≠ [] ∧
      info.blsPublicKeys.length = info.validators.length := by
  have hsafe : ∀ k ≤ 2, ∀ x ∈ (contract true k).own.removals, x.Safe := by
    rintro (_ | k) _ x hx
    · rw [removals_zero] at hx
      cases hx
    · rw [removals] at hx
      rw [List.mem_singleton.mp hx]
      exact ⟨0xe2,by decide,by decide⟩
  exact ⟨removals 1,epoch_has_validator (initialized true) (governed true) (initValidators true) (keyed true) hsafe
    le_rfl (isEpochBlock2 true)⟩

/-- The operator of the only validator leaves, and the epoch block that follows has no validator. -/
theorem epoch_without_validator : GovernedChain (node false) sorter (contract false) (gov false) (H false) 2 ∧
    (∀ anzeon ∈ (node false).chain.config.anzeon, anzeon.initValidators ≠ []) ∧
    (genesisValidator (initialized false)).own.keyed ≠ [] ∧ (node false).config.IsEpochBlock 2 ∧
    ∃ info, extractEpochInfo (H false 2) = some (2,info) ∧ info.validators = [] :=
  ⟨governed false,initValidators false,keyed false,isEpochBlock2 false,nextInfo false,rfl,rfl⟩

end LeavingOperator

end StableNet.Engine
