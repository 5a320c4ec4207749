import StableNet.Engine.VerifyHeader
import Mathlib.Algebra.BigOperators.Group.Finset.Basic
import Mathlib.Data.ZMod.Basic

/-! Aggregated seals: a bit per sealer and the sum of their signatures. BLS signatures are the
elements of a commutative monoid under an encoding of 96 bytes. -/
namespace StableNet.Chain.SealerSet
variable {s : SealerSet} {i j k : ℕ}

/-- The byte at an index, zero beyond the end of the set. -/
def byteAt (s : SealerSet) (k : ℕ) : BitVec 8 := s[k]?.getD 0

lemma isSealer_eq (s : SealerSet) (i : ℕ) : isSealer s i = (byteAt s (i/8)).getLsbD (i%8) := by
  unfold isSealer byteAt
  cases s[i/8]? <;> simp

@[simp] lemma byteAt_append_zeros (s : SealerSet) (n k : ℕ) : byteAt (s++List.replicate n 0) k = byteAt s k := by
  by_cases hk : k<s.length
  · simp [byteAt,List.getElem?_append_left hk]
  · simp only [byteAt,List.getElem?_append_right (not_lt.mp hk),List.getElem?_replicate,
      List.getElem?_eq_none (not_lt.mp hk)]
    split <;> simp

lemma byteAt_modify {n : ℕ} (hn : n<s.length) (f : BitVec 8 → BitVec 8) (k : ℕ) :
    byteAt (s.modify n f) k = if n=k then f (byteAt s k) else byteAt s k := by
  unfold byteAt
  rw [List.getElem?_modify]
  split
  · next h => simp [← h,List.getElem?_eq_getElem hn]
  · simp

lemma getLsbD_setBit (b : BitVec 8) (hj : j<8) : (setBit b i).getLsbD j = (b.getLsbD j || decide (i=j)) := by
  simp [setBit,hj,eq_comm]

@[simp] lemma isSealer_nil (i : ℕ) : isSealer [] i=false := by simp [isSealer]

lemma isSealer_setSealer (s : SealerSet) (i j : ℕ) : isSealer (setSealer s i) j=true ↔ j = i ∨ isSealer s j=true := by
  have hlt : i/8<(s++List.replicate (i/8+1-s.length) 0).length := by
    simp only [List.length_append,List.length_replicate]
    omega
  rw [isSealer_eq,isSealer_eq,setSealer,byteAt_modify hlt,byteAt_append_zeros]
  split
  · next h =>
    rw [getLsbD_setBit _ (Nat.mod_lt _ (by norm_num)),Bool.or_eq_true,decide_eq_true_iff,or_comm]
    refine or_congr_left ⟨fun h' => ?_,fun h' => by rw [h']⟩
    omega
  · next h =>
    refine ⟨Or.inr,fun h' => h'.resolve_left ?_⟩
    rintro rfl
    exact h rfl

/-- All indices fit 32 bits. -/
def Fits (s : SealerSet) : Prop := ∀ i, isSealer s i=true → i<2^32

lemma fits_nil : Fits [] := by simp [Fits]

lemma Fits.setSealer (h : Fits s) (hi : i<2^32) : Fits (setSealer s i) := by
  intro j hj
  rcases (isSealer_setSealer s i j).mp hj with rfl | hj
  · exact hi
  · exact h j hj

lemma isSealer_cons_of_lt (b : BitVec 8) (s : SealerSet) (hi : i<8) : isSealer (b::s) i = b.getLsbD i := by
  simp [isSealer,Nat.div_eq_of_lt hi,Nat.mod_eq_of_lt hi]

lemma isSealer_cons_add (b : BitVec 8) (s : SealerSet) (i : ℕ) : isSealer (b::s) (i+8) = isSealer s i := by
  simp [isSealer]

lemma mem_sealersOfByte_iff {b : BitVec 8} : j ∈ sealersOfByte k b ↔ ∃ o<8, b.getLsbD o=true ∧ j = (k*8+o)%2^32 := by
  simp only [sealersOfByte,List.mem_filterMap,List.mem_range,Option.ite_none_right_eq_some,Option.some.injEq]
  simp only [eq_comm (b := j)]

theorem mem_getSealersFrom : j ∈ getSealersFrom k s ↔ ∃ i, isSealer s i=true ∧ j = (k*8+i)%2^32 := by
  induction s generalizing k with
  | nil => simp [getSealersFrom]
  | cons b s ih =>
    rw [getSealersFrom,List.mem_append,ih,mem_sealersOfByte_iff]
    constructor
    · rintro (⟨o,ho,hbit,rfl⟩ | ⟨i,hi,rfl⟩)
      · exact ⟨o,by rwa [isSealer_cons_of_lt b s ho],rfl⟩
      · exact ⟨i+8,by rwa [isSealer_cons_add],by congr 1; ring⟩
    · rintro ⟨i,hi,rfl⟩
      by_cases h : i<8
      · exact .inl ⟨i,h,by rwa [isSealer_cons_of_lt b s h] at hi,rfl⟩
      · obtain ⟨i,rfl⟩ := Nat.exists_eq_add_of_le' (not_lt.mp h)
        exact .inr ⟨i,by rwa [isSealer_cons_add] at hi,by congr 1; ring⟩

lemma getSealersFrom_increasing (h : ∀ i, isSealer s i=true → k*8+i<2^32) : (getSealersFrom k s).Pairwise (·<·) := by
  induction s generalizing k with
  | nil => exact List.Pairwise.nil
  | cons b s ih =>
    have htail (i : ℕ) (hi : isSealer s i=true) : (k+1)*8+i<2^32 := by
      have := h (i+8) (by rwa [isSealer_cons_add])
      omega
    refine List.pairwise_append.mpr ⟨sealersOfByte_pairwise k b,ih htail,fun x hx y hy => ?_⟩
    obtain ⟨o,ho,hbit,rfl⟩ := mem_sealersOfByte_iff.mp hx
    obtain ⟨i,hi,rfl⟩ := mem_getSealersFrom.mp hy
    have hx := h o (by rwa [isSealer_cons_of_lt b s ho])
    rw [Nat.mod_eq_of_lt hx,Nat.mod_eq_of_lt (htail i hi)]
    omega

lemma Fits.increasing (h : Fits s) : (getSealers s).Pairwise (·<·) :=
  getSealersFrom_increasing fun i hi => by simpa using h i hi

lemma Fits.mem_getSealers (h : Fits s) : i ∈ getSealers s ↔ isSealer s i=true := by
  rw [getSealers,mem_getSealersFrom]
  constructor
  · rintro ⟨j,hj,rfl⟩
    rwa [zero_mul,zero_add,Nat.mod_eq_of_lt (h j hj)]
  · intro hi
    exact ⟨i,hi,by rw [zero_mul,zero_add,Nat.mod_eq_of_lt (h i hi)]⟩

def indices (s : SealerSet) : Finset ℕ := (getSealers s).toFinset

lemma mem_indices : i ∈ indices s ↔ i ∈ getSealers s := List.mem_toFinset

lemma indices_nil : indices []=∅ := rfl

lemma Fits.indices_setSealer (h : Fits s) (hi : i<2^32) : indices (SealerSet.setSealer s i) = insert i (indices s) := by
  ext j
  rw [mem_indices,(h.setSealer hi).mem_getSealers,isSealer_setSealer,Finset.mem_insert,mem_indices,h.mem_getSealers]

end StableNet.Chain.SealerSet

namespace StableNet.Engine
open Chain

/-- The length of a compressed BLS signature. -/
def istanbulExtraSeal : ℕ := 96

/-- The BLS library, its group of signatures written additively. -/
structure Bls (G : Type) where
  compress : G → Bytes
  uncompress : Bytes → Option G
  length_compress : ∀ g, (compress g).length = istanbulExtraSeal
  uncompress_compress : ∀ g, uncompress (compress g) = some g

/-- A seal with the index of its sealer, a `uint32`. -/
structure SealData where
  sealer : BitVec 32
  sealBytes : Bytes

inductive SealError where
  | invalidSeal
  | aggregationFailed
  deriving DecidableEq

variable {G : Type} [AddCommMonoid G]

/-- The sum of compressed signatures; one that does not decode fails the whole. -/
def aggregateCompressedSignatures (bls : Bls G) : List Bytes → Option G
  | [] => some 0
  | b::multiSigs => do
    let g ← bls.uncompress b
    let sum ← aggregateCompressedSignatures bls multiSigs
    some (g+sum)

/-- The loop of `aggregateSeal`, with the sealers and the seals collected so far. -/
def aggregateSealLoop (sealers : SealerSet) (seals : List Bytes) :
    List SealData → Except SealError (SealerSet × List Bytes)
  | [] => .ok (sealers,seals)
  | d::sealDatas =>
    if d.sealBytes.length ≠ istanbulExtraSeal then .error .invalidSeal
    else aggregateSealLoop (sealers.setSealer d.sealer.toNat) (seals++[d.sealBytes]) sealDatas

def aggregateSeal (bls : Bls G) (sealDatas : List SealData) : Except SealError WBFTAggregatedSeal := do
  let (sealers,seals) ← aggregateSealLoop [] [] sealDatas
  match aggregateCompressedSignatures bls seals with
  | none => .error .aggregationFailed
  | some sum => .ok ⟨sealers,bls.compress sum⟩

/-- The loop of `mergeSeals`: seals of sealers already in the set are skipped. -/
def mergeSealsLoop (sealers : SealerSet) (seals : List Bytes) : List SealData → SealerSet × List Bytes
  | [] => (sealers,seals)
  | x::extraSeals =>
    if sealers.isSealer x.sealer.toNat then mergeSealsLoop sealers seals extraSeals
    else mergeSealsLoop (sealers.setSealer x.sealer.toNat) (seals++[x.sealBytes]) extraSeals

/-- Nothing is merged if a seal does not decode. -/
def mergeSeals (bls : Bls G) (aggregated : WBFTAggregatedSeal) (extraSeals : List SealData) : WBFTAggregatedSeal :=
  if extraSeals.isEmpty then aggregated
  else
    let (sealers,seals) := mergeSealsLoop aggregated.sealers [aggregated.signature] extraSeals
    match aggregateCompressedSignatures bls seals with
    | none => aggregated
    | some sum => ⟨sealers,bls.compress sum⟩

/-- The signature some bytes decode to, zero if they do not. -/
def Bls.value (bls : Bls G) (b : Bytes) : G := (bls.uncompress b).getD 0

variable {bls : Bls G} {ds : List SealData} {sealers : SealerSet} {seals : List Bytes} {share : ℕ → G}
  {s : WBFTAggregatedSeal}

lemma Bls.uncompress_eq_value {b : Bytes} (h : bls.uncompress b≠none) :
    bls.uncompress b = some (bls.value b) := by
  obtain ⟨g,hg⟩ := Option.ne_none_iff_exists'.mp h
  rw [Bls.value,hg,Option.getD_some]

/-- A seal of the right length that decodes. -/
def Bls.Valid (bls : Bls G) (b : Bytes) : Prop :=
  b.length = istanbulExtraSeal ∧ bls.uncompress b = some (bls.value b)

lemma aggregateCompressedSignatures_append (bls : Bls G) (bs cs : List Bytes) :
    aggregateCompressedSignatures bls (bs++cs) = (aggregateCompressedSignatures bls bs).bind fun sum =>
      (aggregateCompressedSignatures bls cs).map (sum+·) := by
  induction bs with
  | nil => cases h : aggregateCompressedSignatures bls cs <;> simp [aggregateCompressedSignatures,h]
  | cons b bs ih =>
    simp only [List.cons_append,aggregateCompressedSignatures,ih]
    cases bls.uncompress b <;> cases aggregateCompressedSignatures bls bs <;>
      cases aggregateCompressedSignatures bls cs <;> simp [add_assoc]

lemma aggregateCompressedSignatures_snoc {bs : List Bytes} {b : Bytes} {x y : G}
    (hbs : aggregateCompressedSignatures bls bs = some x) (hb : bls.uncompress b = some y) :
    aggregateCompressedSignatures bls (bs++[b]) = some (x+y) := by
  rw [aggregateCompressedSignatures_append,hbs]
  simp [aggregateCompressedSignatures,hb]

theorem aggregateCompressedSignatures_isSome {bs : List Bytes} :
    (aggregateCompressedSignatures bls bs).isSome ↔ ∀ b ∈ bs, bls.uncompress b = some (bls.value b) := by
  induction bs with
  | nil => simp [aggregateCompressedSignatures]
  | cons b bs ih =>
    rw [List.forall_mem_cons,← ih,aggregateCompressedSignatures,Bls.value]
    cases bls.uncompress b <;> cases aggregateCompressedSignatures bls bs <;> simp

/-- What is collected is exact: the seals sum up to one share for each index in the set. -/
structure Collected (bls : Bls G) (sealers : SealerSet) (seals : List Bytes) (share : ℕ → G) : Prop where
  fits : sealers.Fits
  sum : aggregateCompressedSignatures bls seals = some (∑ i ∈ sealers.indices, share i)

lemma Collected.empty (bls : Bls G) (share : ℕ → G) : Collected bls [] [] share :=
  ⟨SealerSet.fits_nil,by simp [aggregateCompressedSignatures,SealerSet.indices_nil]⟩

lemma Collected.add (h : Collected bls sealers seals share) {d : SealData}
    (hnew : d.sealer.toNat ∉ sealers.indices)
    (hd : bls.uncompress d.sealBytes = some (bls.value d.sealBytes)) :
    Collected bls (sealers.setSealer d.sealer.toNat) (seals++[d.sealBytes])
      (Function.update share d.sealer.toNat (bls.value d.sealBytes)) := by
  refine ⟨h.fits.setSealer d.sealer.isLt,?_⟩
  rw [h.fits.indices_setSealer d.sealer.isLt,aggregateCompressedSignatures_snoc h.sum hd,
    Finset.sum_insert hnew,Function.update_self,add_comm]
  congr 2
  refine Finset.sum_congr rfl fun i hi => ?_
  rw [Function.update_of_ne]
  rintro rfl
  exact hnew hi

def sealerIndices (ds : List SealData) : Finset ℕ := (ds.map fun d => d.sealer.toNat).toFinset

lemma sealerIndices_cons (d : SealData) (ds : List SealData) :
    sealerIndices (d::ds) = insert d.sealer.toNat (sealerIndices ds) := by
  simp [sealerIndices]

theorem Collected.aggregateSealLoop (h : Collected bls sealers seals share)
    (hnodup : (ds.map SealData.sealer).Nodup) (hnew : ∀ d ∈ ds, d.sealer.toNat ∉ sealers.indices)
    (hvalid : ∀ d ∈ ds, bls.Valid d.sealBytes) :
    ∃ sealers' share', aggregateSealLoop sealers seals ds = .ok (sealers',seals++ds.map SealData.sealBytes) ∧
      Collected bls sealers' (seals++ds.map SealData.sealBytes) share' ∧
      sealers'.indices = sealers.indices ∪ sealerIndices ds ∧ (∀ i ∈ sealers.indices, share' i = share i) ∧
      ∀ d ∈ ds, share' d.sealer.toNat = bls.value d.sealBytes := by
  induction ds generalizing sealers seals share with
  | nil => exact ⟨sealers,share,by simp [Engine.aggregateSealLoop],by simpa using h,by simp [sealerIndices],
      fun _ _ => rfl,by simp⟩
  | cons d ds ih =>
    have hd := hvalid d List.mem_cons_self
    have hdnew := hnew d List.mem_cons_self
    have hindices := h.fits.indices_setSealer d.sealer.isLt
    obtain ⟨hdist,hnodup⟩ := List.nodup_cons.mp hnodup
    have hnew' (x : SealData) (hx : x ∈ ds) : x.sealer.toNat ∉ (sealers.setSealer d.sealer.toNat).indices := by
      rw [hindices,Finset.mem_insert,not_or]
      refine ⟨fun heq => hdist ?_,hnew x (List.mem_cons_of_mem _ hx)⟩
      rw [← BitVec.eq_of_toNat_eq heq]
      exact List.mem_map_of_mem hx
    obtain ⟨sealers',share',hrun,hcol,hunion,hold,hshare⟩ := ih (h.add hdnew hd.2) hnodup hnew'
      fun x hx => hvalid x (List.mem_cons_of_mem _ hx)
    refine ⟨sealers',share',?_,?_,?_,?_,?_⟩
    · rw [Engine.aggregateSealLoop,if_neg (not_not.mpr hd.1),hrun,List.map_cons,List.append_assoc]
      rfl
    · simpa [List.append_assoc] using hcol
    · rw [hunion,hindices,sealerIndices_cons,Finset.insert_union,Finset.union_insert]
    · intro i hi
      rw [hold i (by rw [hindices]; exact Finset.mem_insert_of_mem hi),Function.update_of_ne]
      rintro rfl
      exact hdnew hi
    · intro x hx
      rcases List.mem_cons.mp hx with rfl | hx
      · rw [hold _ (by rw [hindices]; exact Finset.mem_insert_self _ _),Function.update_self]
      · exact hshare x hx

theorem mergeSealsLoop_seals (sealers : SealerSet) (seals : List Bytes) (xs : List SealData) :
    ∃ rest, (mergeSealsLoop sealers seals xs).2 = seals++rest ∧ rest ⊆ xs.map SealData.sealBytes := by
  induction xs generalizing sealers seals with
  | nil => exact ⟨[],by simp [mergeSealsLoop]⟩
  | cons x xs ih =>
    rw [mergeSealsLoop]
    split
    · obtain ⟨rest,hrest,hsub⟩ := ih sealers seals
      exact ⟨rest,hrest,List.subset_cons_of_subset _ hsub⟩
    · obtain ⟨rest,hrest,hsub⟩ := ih (sealers.setSealer x.sealer.toNat) (seals++[x.sealBytes])
      exact ⟨x.sealBytes::rest,by rw [hrest,List.append_assoc,List.singleton_append],List.cons_subset_cons _ hsub⟩

theorem Collected.mergeSealsLoop {xs : List SealData} (h : Collected bls sealers seals share)
    (hsum : (aggregateCompressedSignatures bls (mergeSealsLoop sealers seals xs).2).isSome) :
    ∃ share', Collected bls (mergeSealsLoop sealers seals xs).1 (mergeSealsLoop sealers seals xs).2 share' ∧
      (mergeSealsLoop sealers seals xs).1.indices = sealers.indices ∪ sealerIndices xs ∧
      (∀ i ∈ sealers.indices, share' i = share i) ∧ ∀ i ∈ sealerIndices xs, i ∉ sealers.indices →
        ∃ x ∈ xs, x.sealer.toNat = i ∧ bls.uncompress x.sealBytes = some (share' i) := by
  induction xs generalizing sealers seals share with
  | nil => exact ⟨share,h,by simp [Engine.mergeSealsLoop,sealerIndices],fun _ _ => rfl,by simp [sealerIndices]⟩
  | cons x xs ih =>
    have hbit : sealers.isSealer x.sealer.toNat=true ↔ x.sealer.toNat ∈ sealers.indices := by
      rw [SealerSet.mem_indices,h.fits.mem_getSealers]
    by_cases hx : x.sealer.toNat ∈ sealers.indices
    · -- the sealer is already in the set: its seal is skipped
      rw [Engine.mergeSealsLoop,if_pos (hbit.mpr hx)] at hsum ⊢
      obtain ⟨share',hcol,hunion,hold,hshare⟩ := ih h hsum
      refine ⟨share',hcol,?_,hold,fun i hi hnew => ?_⟩
      · rw [hunion,sealerIndices_cons,Finset.union_insert,Finset.insert_eq_of_mem]
        exact Finset.mem_union_left _ hx
      · rw [sealerIndices_cons,Finset.mem_insert] at hi
        obtain ⟨y,hy,heq⟩ := hshare i (hi.resolve_left fun he => hnew (he ▸ hx)) hnew
        exact ⟨y,List.mem_cons_of_mem _ hy,heq⟩
    · rw [Engine.mergeSealsLoop,if_neg (mt hbit.mp hx)] at hsum ⊢
      have hindices := h.fits.indices_setSealer x.sealer.isLt
      have hvalue : bls.uncompress x.sealBytes = some (bls.value x.sealBytes) := by
        obtain ⟨rest,hrest,-⟩ := mergeSealsLoop_seals (sealers.setSealer x.sealer.toNat) (seals++[x.sealBytes]) xs
        exact aggregateCompressedSignatures_isSome.mp hsum _ (by simp [hrest])
      obtain ⟨share',hcol,hunion,hold,hshare⟩ := ih (h.add hx hvalue) hsum
      refine ⟨share',hcol,?_,fun i hi => ?_,fun i hi hnew => ?_⟩
      · rw [hunion,hindices,sealerIndices_cons,Finset.insert_union,Finset.union_insert]
      · rw [hold i (by rw [hindices]; exact Finset.mem_insert_of_mem hi),Function.update_of_ne]
        rintro rfl
        exact hx hi
      · rw [sealerIndices_cons,Finset.mem_insert] at hi
        by_cases he : i=x.sealer.toNat
        · refine ⟨x,List.mem_cons_self,he.symm,?_⟩
          rw [he,hold _ (by rw [hindices]; exact Finset.mem_insert_self _ _),Function.update_self,hvalue]
        · obtain ⟨y,hy,heq⟩ := hshare i (hi.resolve_left he) (by
            rw [hindices,Finset.mem_insert,not_or]
            exact ⟨he,hnew⟩)
          exact ⟨y,List.mem_cons_of_mem _ hy,heq⟩

/-- An aggregated seal is exact: `GetSealers` lists its set bits in increasing order, and its
signature is the sum of one share for each of them. -/
structure Exact (bls : Bls G) (s : WBFTAggregatedSeal) (share : ℕ → G) : Prop where
  increasing : s.sealers.getSealers.Pairwise (·<·)
  mem_iff : ∀ i, i ∈ s.sealers.getSealers ↔ s.sealers.isSealer i=true
  signature : bls.uncompress s.signature = some ((s.sealers.getSealers.map share).sum)

lemma sum_indices {s : SealerSet} (h : s.getSealers.Pairwise (·<·)) (share : ℕ → G) :
    (s.getSealers.map share).sum = ∑ i ∈ s.indices, share i := (List.sum_toFinset share (h.imp Nat.ne_of_lt)).symm

lemma Collected.exact {sum : G} (h : Collected bls sealers seals share)
    (hsum : aggregateCompressedSignatures bls seals = some sum) :
    Exact bls ⟨sealers,bls.compress sum⟩ share := by
  refine ⟨h.fits.increasing,fun i => h.fits.mem_getSealers,?_⟩
  rw [sum_indices h.fits.increasing,bls.uncompress_compress,← h.sum,hsum]

lemma Exact.collected (h : Exact bls s share) : Collected bls s.sealers [s.signature] share := by
  constructor
  · intro i hi
    obtain ⟨j,-,rfl⟩ := SealerSet.mem_getSealersFrom.mp ((h.mem_iff i).mpr hi)
    exact Nat.mod_lt _ (by norm_num)
  · simp [aggregateCompressedSignatures,h.signature,sum_indices h.increasing]

/-- Seals of distinct sealers aggregate to the set of their indices and the sum of the seals. -/
theorem aggregateSeal_exact (hnodup : (ds.map SealData.sealer).Nodup)
    (hvalid : ∀ d ∈ ds, bls.Valid d.sealBytes) :
    ∃ s share, aggregateSeal bls ds = .ok s ∧ Exact bls s share ∧ s.sealers.indices = sealerIndices ds ∧
      ∀ d ∈ ds, share d.sealer.toNat = bls.value d.sealBytes := by
  obtain ⟨sealers,share,hrun,hcol,hunion,-,hshare⟩ :=
    (Collected.empty bls 0).aggregateSealLoop hnodup (by simp [SealerSet.indices_nil]) hvalid
  refine ⟨_,share,?_,hcol.exact hcol.sum,?_,hshare⟩
  · simp only [aggregateSeal,hrun,bind,Except.bind,hcol.sum]
  · rw [hunion,SealerSet.indices_nil,Finset.empty_union]

theorem mergeSeals_cases (h : Exact bls s share)
    (xs : List SealData) : ((∃ x ∈ xs, bls.uncompress x.sealBytes=none) ∧ mergeSeals bls s xs=s) ∨
    ∃ share', Exact bls (mergeSeals bls s xs) share' ∧
      (mergeSeals bls s xs).sealers.indices = s.sealers.indices ∪ sealerIndices xs ∧
      (∀ i ∈ s.sealers.indices, share' i = share i) ∧ ∀ i ∈ sealerIndices xs, i ∉ s.sealers.indices →
        ∃ x ∈ xs, x.sealer.toNat = i ∧ bls.uncompress x.sealBytes = some (share' i) := by
  by_cases hxs : xs.isEmpty=true
  · obtain rfl := List.isEmpty_iff.mp hxs
    exact .inr ⟨share,h,by simp [mergeSeals,sealerIndices],fun _ _ => rfl,by simp [sealerIndices]⟩
  rw [mergeSeals,if_neg hxs]
  cases hsum : aggregateCompressedSignatures bls (mergeSealsLoop s.sealers [s.signature] xs).2 with
  | some sum =>
    have hsome : (aggregateCompressedSignatures bls (mergeSealsLoop s.sealers [s.signature] xs).2).isSome := by
      rw [hsum,Option.isSome_some]
    obtain ⟨share',hcol,hrest⟩ := h.collected.mergeSealsLoop hsome
    simp only [hsum]
    exact .inr ⟨share',hcol.exact hsum,hrest⟩
  | none =>
    simp only [hsum,and_true]
    refine .inl (by_contra fun hall => ?_)
    push Not at hall
    have hsome : (aggregateCompressedSignatures bls (mergeSealsLoop s.sealers [s.signature] xs).2).isSome := by
      refine aggregateCompressedSignatures_isSome.mpr fun b hb => Bls.uncompress_eq_value ?_
      obtain ⟨rest,hrest,hsub⟩ := mergeSealsLoop_seals s.sealers [s.signature] xs
      rw [hrest,List.singleton_append,List.mem_cons] at hb
      rcases hb with rfl | hb
      · simp [h.signature]
      · obtain ⟨x,hx,rfl⟩ := List.mem_map.mp (hsub hb)
        exact hall x hx
    simp [hsum] at hsome

lemma isSome_of_mapM_eq_some {α β : Type} {f : α → Option β} {xs : List α} {ys : List β}
    (h : xs.mapM f = some ys) : ∀ x ∈ xs, (f x).isSome := by
  induction xs generalizing ys with
  | nil => simp
  | cons x xs ih =>
    rw [List.mapM_cons] at h
    obtain ⟨y,hy,h⟩ := Option.bind_eq_some_iff.mp h
    obtain ⟨ys',hys,-⟩ := Option.bind_eq_some_iff.mp h
    exact List.forall_mem_cons.mpr ⟨by rw [hy]; rfl,ih hys⟩

/-- A seal that verifies is counted once for each of a quorum of distinct validators. -/
theorem Exact.counts_distinct (h : Exact bls s share)
    {crypto : Crypto} {valSet : Wbft.ValidatorSet} {header : Header} {round : ℕ} {sealType : SealType}
    (hverify : verifyAggregatedSeal crypto valSet header round s sealType=true) :
    s.sealers.getSealers.Nodup ∧ valSet.quorumSize ≤ s.sealers.indices.card ∧
      ∀ i ∈ s.sealers.indices, i<valSet.size := by
  have hnodup : s.sealers.getSealers.Nodup := h.increasing.imp Nat.ne_of_lt
  unfold verifyAggregatedSeal at hverify
  dsimp only at hverify
  split_ifs at hverify with hcount
  split at hverify
  · cases hverify
  · next vals hvals =>
    refine ⟨hnodup,?_,fun i hi => ?_⟩
    · rw [SealerSet.indices,List.toFinset_card_of_nodup hnodup]
      exact not_lt.mp hcount
    · have hsome := isSome_of_mapM_eq_some hvals i (SealerSet.mem_indices.mp hi)
      simpa [Wbft.ValidatorSet.getByIndex,Wbft.ValidatorSet.size] using hsome

/-- Aggregated seals are exact, with BLS aggregation as a commutative sum: those of distinct sealers,
those that extra seals are merged into, and so those that are verified. -/
theorem aggregated_seals_exact (bls : Bls G) : (∀ sealDatas : List SealData, (sealDatas.map SealData.sealer).Nodup →
      (∀ d ∈ sealDatas, bls.Valid d.sealBytes) → ∃ s share, aggregateSeal bls sealDatas = .ok s ∧ Exact bls s share ∧
        s.sealers.indices = sealerIndices sealDatas ∧ ∀ d ∈ sealDatas, share d.sealer.toNat = bls.value d.sealBytes) ∧
    (∀ s share, Exact bls s share → ∀ extraSeals : List SealData,
      (∃ share', Exact bls (mergeSeals bls s extraSeals) share') ∧ ((∀ x ∈ extraSeals, bls.Valid x.sealBytes) →
        ∃ share', Exact bls (mergeSeals bls s extraSeals) share' ∧
          (mergeSeals bls s extraSeals).sealers.indices = s.sealers.indices ∪ sealerIndices extraSeals ∧
          (∀ i ∈ s.sealers.indices, share' i = share i) ∧ ∀ i ∈ sealerIndices extraSeals, i ∉ s.sealers.indices →
            ∃ x ∈ extraSeals, x.sealer.toNat = i ∧ share' i = bls.value x.sealBytes)) ∧
    ∀ s share, Exact bls s share → ∀ crypto valSet header round sealType,
      verifyAggregatedSeal crypto valSet header round s sealType=true →
      s.sealers.getSealers.Nodup ∧ valSet.quorumSize ≤ s.sealers.indices.card ∧
        ∀ i ∈ s.sealers.indices, i<valSet.size := by
  refine ⟨fun ds => aggregateSeal_exact,fun s share h xs => ⟨?_,fun hvalid => ?_⟩,
    fun s share h _ _ _ _ _ => h.counts_distinct⟩
  · rcases mergeSeals_cases h xs with ⟨-,heq⟩ | ⟨share',h',-⟩
    · exact ⟨share,by rw [heq]; exact h⟩
    · exact ⟨share',h'⟩
  · rcases mergeSeals_cases h xs with ⟨⟨x,hx,hnone⟩,-⟩ | ⟨share',h',hunion,hold,hshare⟩
    · simp [(hvalid x hx).2] at hnone
    · refine ⟨share',h',hunion,hold,fun i hi hnew => ?_⟩
      obtain ⟨x,hx,hxi,hval⟩ := hshare i hi hnew
      exact ⟨x,hx,hxi,by rw [Bls.value,hval,Option.getD_some]⟩

def byteBls : Bls (ZMod 256) where
  compress g := BitVec.ofNat 8 g.val::List.replicate 95 0
  uncompress b := b.head?.map fun x => (x.toNat : ZMod 256)
  length_compress _ := rfl
  uncompress_compress g := by
    have hlt := ZMod.val_lt g
    simp [Nat.mod_eq_of_lt hlt]

/-- Two seals, the second of them with two extra seals of which one is of a sealer already there. -/
theorem aggregated_seals_exact_of_bytes : ∃ s share,
    aggregateSeal byteBls [⟨9,byteBls.compress 5⟩,⟨2,byteBls.compress 7⟩] = .ok s ∧ Exact byteBls s share ∧
    ∃ share', Exact byteBls (mergeSeals byteBls s [⟨2,byteBls.compress 7⟩,⟨4,byteBls.compress 1⟩]) share' := by
  have hvalid (g : ZMod 256) : byteBls.Valid (byteBls.compress g) :=
    ⟨byteBls.length_compress g,by rw [Bls.value,byteBls.uncompress_compress]; rfl⟩
  obtain ⟨haggregate,hmerge,-⟩ := aggregated_seals_exact byteBls
  obtain ⟨s,share,hok,hexact,-⟩ := haggregate [⟨9,byteBls.compress 5⟩,⟨2,byteBls.compress 7⟩]
    (by decide) (by simp [hvalid])
  exact ⟨s,share,hok,hexact,(hmerge s share hexact _).1⟩

end StableNet.Engine
