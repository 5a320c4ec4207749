import StableNet.Chain.Wire
import StableNet.Engine.Seals
import StableNet.Lib.Except

/-! `CommitHeader`: the seals and the round are written into the extra data of a proposed header, and
the hash of the block stays what it was. -/
namespace StableNet.Engine
open Lib Chain Wire.Header
variable {seals prepared committed : List SealData} {round : ℕ}

def istanbulExtraVanity : ℕ := 32

inductive CommitError where
  | undecodableExtra
  | invalidPreparedSeals
  | invalidCommittedSeals
  | invalidSeal (e : SealError)
  | encoding
  deriving DecidableEq

/-- The extra data, or fresh extra data around a vanity that is not yet encoded. -/
def getExtra (header : Wire.Header) : Except CommitError Wire.WBFTExtra :=
  if header.extra.length < istanbulExtraVanity then
    .ok {
      vanityData := header.extra++List.replicate (istanbulExtraVanity-header.extra.length) 0
      randaoReveal := []
      prevRound := 0
      prevPreparedSeal := none
      prevCommittedSeal := none
      round := 0
      preparedSeal := none
      committedSeal := none
      gasTip := 0
      epochInfo := none }
  else
    match header.extractWBFTExtra with
    | none => .error .undecodableExtra
    | some extra => .ok extra

section
variable {G : Type} [AddCommMonoid G] {bls : Bls G} {e e' : Wire.WBFTExtra} {h h' : Wire.Header}

def writePreparedSeals (bls : Bls G) (preparedSeals : List SealData) (extra : Wire.WBFTExtra) :
    Except CommitError Wire.WBFTExtra :=
  if preparedSeals.isEmpty then .error .invalidPreparedSeals
  else do
    let aggregated ← (aggregateSeal bls preparedSeals).mapError .invalidSeal
    .ok { extra with preparedSeal := some aggregated }

def writeCommittedSeals (bls : Bls G) (committedSeals : List SealData) (extra : Wire.WBFTExtra) :
    Except CommitError Wire.WBFTExtra :=
  if committedSeals.isEmpty then .error .invalidCommittedSeals
  else do
    let aggregated ← (aggregateSeal bls committedSeals).mapError .invalidSeal
    .ok { extra with committedSeal := some aggregated }

/-- The round is truncated to a `uint32`. -/
def writeRoundNumber (round : ℕ) (extra : Wire.WBFTExtra) : Wire.WBFTExtra :=
  { extra with round := BitVec.ofNat 32 round }

/-- The extra data is nothing but the payload. -/
def setExtra (header : Wire.Header) (extra : Wire.WBFTExtra) : Except CommitError Wire.Header :=
  match Wire.extraCodec.toBytes extra with
  | none => .error .encoding
  | some payload => .ok { header with extra := payload }

def commitHeader (bls : Bls G) (header : Wire.Header) (preparedSeals committedSeals : List SealData) (round : ℕ) :
    Except CommitError Wire.Header := do
  let extra ← getExtra header
  let extra ← writePreparedSeals bls preparedSeals extra
  let extra ← writeCommittedSeals bls committedSeals extra
  setExtra header (writeRoundNumber round extra)

lemma filtered_writePreparedSeals (h : writePreparedSeals bls seals e = .ok e') (r : BitVec 32) :
    e'.filtered r = e.filtered r := by
  unfold writePreparedSeals at h
  split at h
  · cases h
  · obtain ⟨s,-,hs⟩ := bind_eq_ok.mp h
    cases hs
    rfl

lemma filtered_writeCommittedSeals (h : writeCommittedSeals bls seals e = .ok e') (r : BitVec 32) :
    e'.filtered r = e.filtered r := by
  unfold writeCommittedSeals at h
  split at h
  · cases h
  · obtain ⟨s,-,hs⟩ := bind_eq_ok.mp h
    cases hs
    rfl

theorem commitHeader_ok (hok : commitHeader bls h prepared committed round = .ok h') :
    ∃ e e', getExtra h = .ok e ∧ (∀ r, e'.filtered r = e.filtered r) ∧ h'.extractWBFTExtra = some e' ∧
      h'.rest=h.rest := by
  obtain ⟨e,he,hok⟩ := bind_eq_ok.mp hok
  obtain ⟨e1,he1,hok⟩ := bind_eq_ok.mp hok
  obtain ⟨e2,he2,hok⟩ := bind_eq_ok.mp hok
  refine ⟨e,writeRoundNumber round e2,he,fun r => ?_,?_⟩
  · rw [← filtered_writePreparedSeals he1,← filtered_writeCommittedSeals he2]
    rfl
  · unfold setExtra at hok
    split at hok
    · cases hok
    · next payload hp =>
      cases hok
      exact ⟨(Rlp.Codec.ofBytes_eq_some_iff _).mpr hp,rfl⟩

section
variable (keccak : Bytes → Wire.Hash) (hd : h.difficulty=wbftDefaultDifficulty) (he : h.extractWBFTExtra = some e)
include keccak hd he

lemma hash_congr (he' : h'.extractWBFTExtra = some e') (hrest : h'.rest=h.rest) (hk : e'.filtered 0 = e.filtered 0) :
    h'.hash keccak = h.hash keccak := by
  have hd' : h'.difficulty=wbftDefaultDifficulty := (congrArg Wire.Header.difficulty hrest).trans hd
  rw [hash_eq_preimage keccak hd he,hash_eq_preimage keccak hd' he',
    Wire.Header.preimage,Wire.Header.preimage,wbftFiltered_eq he,wbftFiltered_eq he',
    hrest,hk]

lemma hash_commitHeader (hlen : istanbulExtraVanity ≤ h.extra.length)
    (hok : commitHeader bls h prepared committed round = .ok h') : h'.hash keccak = h.hash keccak := by
  obtain ⟨e1,e',hget,hk,he',hrest⟩ := commitHeader_ok hok
  rw [getExtra,if_neg (not_lt.mpr hlen),he] at hget
  cases hget
  exact hash_congr keccak hd he he' hrest (hk 0)

end

end

/-- The hash of a header of the engine whose extra data has the length of a vanity is unchanged by
`CommitHeader`. Two such headers without gaps in their optional fields that have the same hash differ
at most in the round and the seals, and seals of different filtered headers, rounds or types sign
different hashes. -/
theorem block_identity {G : Type} [AddCommMonoid G] (bls : Bls G) (keccak : Bytes → Wire.Hash) :
    (∀ (h h' : Wire.Header) e preparedSeals committedSeals round, h.difficulty=wbftDefaultDifficulty →
      h.extractWBFTExtra = some e → istanbulExtraVanity ≤ h.extra.length →
      commitHeader bls h preparedSeals committedSeals round = .ok h' → h'.hash keccak = h.hash keccak) ∧
    (∀ (h h' : Wire.Header) e e' x, Wire.NoCollision keccak [h.preimage 0,h'.preimage 0] → h.NoGap → h'.NoGap →
      h.difficulty=wbftDefaultDifficulty → h.extractWBFTExtra = some e →
      h'.difficulty=wbftDefaultDifficulty → h'.extractWBFTExtra = some e' →
      h.hash keccak = some x → h'.hash keccak = some x → h.rest=h'.rest ∧ e.filtered 0 = e'.filtered 0) ∧
    ∀ (h h' f f' : Wire.Header) r r' t t' x,
      Wire.NoCollision keccak [h.preimage r,h'.preimage r',Wire.sealPreimage keccak h r t,
        Wire.sealPreimage keccak h' r' t'] → h.NoGap → h'.NoGap →
      h.wbftFilteredHeaderWithRound r = some f → h'.wbftFilteredHeaderWithRound r' = some f' →
      Wire.prepareSeal keccak h r t = some x → Wire.prepareSeal keccak h' r' t' = some x →
      h.wbftFilteredHeader=h'.wbftFilteredHeader ∧ r=r' ∧ t=t' :=
  ⟨fun _ _ _ _ _ _ hd he hlen hok => hash_commitHeader keccak hd he hlen hok,
    fun _ _ _ _ _ hfree hgap hgap' hd he hd' he' hx hx' =>
      Wire.Header.same_of_hash_eq hfree hgap hgap' hd he hd' he' hx hx',
    fun _ _ _ _ _ _ _ _ _ hfree hgap hgap' hf hf' hx hx' =>
      Wire.same_of_prepareSeal_eq hfree hgap hgap' hf hf' hx hx'⟩

def sampleHeader (extra : Bytes) (baseFee : Option ℕ) (withdrawalsHash : Option Wire.Hash) : Wire.Header where
  parentHash := 1
  uncleHash := 0
  coinbase := 2
  root := 3
  txHash := 4
  receiptHash := 5
  bloom := 0
  difficulty := 1
  number := 6
  gasLimit := 7
  gasUsed := 8
  time := 9
  extra := extra
  mixDigest := 0
  nonce := 0
  baseFee := baseFee
  withdrawalsHash := withdrawalsHash
  blobGasUsed := none
  excessBlobGas := none
  parentBeaconRoot := none

def sampleExtra (vanity : Bytes) : Wire.WBFTExtra := ⟨vanity,[],0,none,none,0,none,none,0,none⟩

/-- The eleven bytes of extra data without any content. -/
def shortExtra : Bytes := [0xca,0x80,0x80,0x80,0xc0,0xc0,0x80,0xc0,0xc0,0x80,0xc0]

def vanityExtra : Bytes :=
  [0xea,0xa0]++List.replicate 32 0++[0x80,0x80,0xc0,0xc0,0x80,0xc0,0xc0,0x80,0xc0]

lemma extract_shortExtra (baseFee : Option ℕ) (withdrawalsHash : Option Wire.Hash) :
    (sampleHeader shortExtra baseFee withdrawalsHash).extractWBFTExtra = some (sampleExtra []) :=
  show Wire.extraCodec.ofBytes shortExtra = some (sampleExtra []) by decide +kernel

lemma hash_sample_isSome (keccak : Bytes → Wire.Hash) (baseFee : Option ℕ) (withdrawalsHash : Option Wire.Hash)
    (hb : ∀ fee ∈ baseFee, fee<256^32) : ((sampleHeader shortExtra baseFee withdrawalsHash).hash keccak).isSome := by
  have hfiltered : Wire.extraCodec.toBytes ((sampleExtra []).filtered 0) = some shortExtra := by decide +kernel
  rw [hash_eq_preimage keccak rfl (extract_shortExtra _ _),Option.isSome_map]
  exact isSome_preimage (extract_shortExtra _ _) (show 1<256^32 by decide)
    (show 6<256^32 by decide) hb hfiltered (by decide)

def sampleSeals : List SealData := [⟨0,byteBls.compress 1⟩]

def sampleAggregate : WBFTAggregatedSeal := ⟨[1],byteBls.compress 1⟩

lemma aggregate_sampleSeals : aggregateSeal byteBls sampleSeals = .ok sampleAggregate := by decide +kernel

def sealedExtra (e : Wire.WBFTExtra) (round : ℕ) : Wire.WBFTExtra :=
  { e with preparedSeal := some sampleAggregate, committedSeal := some sampleAggregate, round := BitVec.ofNat 32 round }

lemma exists_commitHeader_sample {h : Wire.Header} {e : Wire.WBFTExtra} (round : ℕ) (hget : getExtra h = .ok e)
    (hsize : (Wire.extraCodec.toBytes (sealedExtra e round)).isSome) :
    ∃ h', commitHeader byteBls h sampleSeals sampleSeals round = .ok h' := by
  obtain ⟨payload,hp⟩ := Option.isSome_iff_exists.mp hsize
  refine ⟨{ h with extra := payload },?_⟩
  have hprepared : writePreparedSeals byteBls sampleSeals e = .ok { e with preparedSeal := some sampleAggregate } := by
    rw [writePreparedSeals,if_neg (by decide),aggregate_sampleSeals]
    rfl
  have hcommitted (e : Wire.WBFTExtra) :
      writeCommittedSeals byteBls sampleSeals e = .ok { e with committedSeal := some sampleAggregate } := by
    rw [writeCommittedSeals,if_neg (by decide),aggregate_sampleSeals]
    rfl
  rw [commitHeader,hget,ok_bind,hprepared,ok_bind,hcommitted,ok_bind,setExtra]
  exact congrArg (fun x : Option Bytes => match x with
    | none => Except.error CommitError.encoding
    | some payload => .ok { h with extra := payload }) hp

/-- Extra data of eleven bytes decodes, but `CommitHeader` takes it for a vanity and changes the hash;
and the hash does not tell a nil base fee from zero before a withdrawals hash. -/
theorem short_extra_changes_hash :
    (∃ h h', h = sampleHeader shortExtra (some 1) none ∧ h.extractWBFTExtra = some (sampleExtra []) ∧
      commitHeader byteBls h sampleSeals sampleSeals 0 = .ok h' ∧
      ∀ keccak, Wire.NoCollision keccak [h'.preimage 0,h.preimage 0] → h'.hash keccak ≠ h.hash keccak) ∧
    ∃ h h', h = sampleHeader shortExtra none (some 0) ∧ h' = sampleHeader shortExtra (some 0) (some 0) ∧
      h.extractWBFTExtra = some (sampleExtra []) ∧ h'.extractWBFTExtra = some (sampleExtra []) ∧
      ∀ keccak, (h.hash keccak).isSome ∧ h.hash keccak = h'.hash keccak := by
  constructor
  · obtain ⟨h',hok⟩ := exists_commitHeader_sample (h := sampleHeader shortExtra (some 1) none)
      (e := sampleExtra (shortExtra++List.replicate 21 0)) 0 rfl (by decide +kernel)
    obtain ⟨e,e',hget,hk,he',hrest⟩ := commitHeader_ok hok
    refine ⟨_,h',rfl,extract_shortExtra _ _,hok,fun keccak hfree heq => ?_⟩
    have hd := congrArg Wire.Header.difficulty hrest
    have hgap : (sampleHeader shortExtra (some 1) none).NoGap := by
      simp [Wire.Header.NoGap,Wire.Header.optional,Wire.Dense,sampleHeader]
    have hgap' : h'.rest.NoGap := hrest ▸ hgap
    obtain ⟨x,hx⟩ := Option.isSome_iff_exists.mp (hash_sample_isSome keccak (some 1) none (by simp))
    have hsame := (Wire.Header.same_of_hash_eq hfree hgap' hgap hd he' rfl (extract_shortExtra _ _)
      (heq.trans hx) hx).2
    -- the vanity would have to be empty
    have hvanity := congrArg (fun e => e.vanityData.length) (hsame.symm.trans (hk 0))
    rw [getExtra,if_pos (by decide)] at hget
    cases hget
    simp [Wire.WBFTExtra.filtered,sampleExtra,sampleHeader,shortExtra,istanbulExtraVanity] at hvanity
  · refine ⟨_,_,rfl,rfl,extract_shortExtra _ _,extract_shortExtra _ _,fun keccak =>
      ⟨hash_sample_isSome keccak none (some 0) (by simp),?_⟩⟩
    rw [Wire.Header.hash_eq_preimage keccak rfl (extract_shortExtra _ _),
      Wire.Header.hash_eq_preimage keccak rfl (extract_shortExtra _ _),Wire.Header.preimage,Wire.Header.preimage,
      Wire.Header.wbftFiltered_eq (extract_shortExtra _ _),Wire.Header.wbftFiltered_eq (extract_shortExtra _ _)]
    rfl

/-- A header with a vanity of 32 bytes, before and after it is committed in round 3, under a hash that tells the
preimage of the header from that of its seals. -/
theorem block_identity_of_vanity : ∃ keccak h h', h = sampleHeader vanityExtra (some 1) none ∧
    commitHeader byteBls h sampleSeals sampleSeals 3 = .ok h' ∧ h'.hash keccak = h.hash keccak ∧ h.rest=h'.rest ∧
    h.wbftFilteredHeader=h'.wbftFilteredHeader := by
  let h := sampleHeader vanityExtra (some 1) none
  have he : h.extractWBFTExtra = some (sampleExtra (List.replicate 32 0)) :=
    show Wire.extraCodec.ofBytes vanityExtra = some _ by decide +kernel
  have hget : getExtra h = .ok (sampleExtra (List.replicate 32 0)) := by
    rw [getExtra,if_neg (by decide),he]
  obtain ⟨h',hok⟩ := exists_commitHeader_sample 3 hget (by decide +kernel)
  obtain ⟨e,e',hget',hk,he',hrest⟩ := commitHeader_ok hok
  obtain rfl := Except.ok.inj (hget.symm.trans hget')
  -- both headers filter to one, so preimages and seals agree
  have hfiltered : Wire.extraCodec.toBytes ((sampleExtra (List.replicate 32 0)).filtered 0) = some vanityExtra := by
    decide +kernel
  have hf : h.wbftFilteredHeaderWithRound 0 = some h := by rw [wbftFiltered_eq he,hfiltered]; rfl
  have hf' : h'.wbftFilteredHeaderWithRound 0 = some h := by
    rw [wbftFiltered_eq he',hk,hfiltered,hrest]; rfl
  obtain ⟨b,hb⟩ := Option.isSome_iff_exists.mp (isSome_preimage he (show 1<256^32 by decide)
    (show 6<256^32 by decide) (by simp [h,sampleHeader]) hfiltered (by decide))
  have hb' : h'.preimage 0 = some b := by rw [← hb,Wire.Header.preimage,Wire.Header.preimage,hf,hf']
  let keccak : Bytes → Wire.Hash := fun a => if a=b then 1 else 0
  have hkeccak : keccak b = 1 := if_pos rfl
  have hseal {g : Wire.Header} (hg : g.wbftFilteredHeaderWithRound 0 = some h) :
      Wire.sealPreimage keccak g 0 .commit = some (BigEndian.encode 32 1++[Wire.SealType.toByte .commit]) := by
    have hbytes : Rlp.encodeToBytes h.encodeRLP = some b := by rw [← hb,Wire.Header.preimage,hf,Option.bind_some]
    have hrlp : h.rlpHash keccak = some 1 := by rw [Wire.Header.rlpHash,hbytes,Option.map_some,hkeccak]
    rw [Wire.sealPreimage,Wire.Header.wbftHashWithRoundNumber_eq hg,hrlp]
    rfl
  have hgap : h.NoGap := by simp [Wire.Header.NoGap,Wire.Header.optional,Wire.Dense,h,sampleHeader]
  have hgap' : h'.NoGap := by
    have hrest' : h'.rest.NoGap := hrest ▸ hgap
    exact hrest'
  obtain ⟨hsame,hdiffer,hseals⟩ := block_identity byteBls keccak
  have hhash := hsame h h' _ _ _ _ rfl he (by decide) hok
  have hx : h.hash keccak = some 1 := by
    rw [hash_eq_preimage keccak rfl he,hb,Option.map_some,hkeccak]
  refine ⟨keccak,h,h',rfl,hok,hhash,(hdiffer h h' _ _ 1 ?_ hgap hgap' rfl he
    (congrArg Wire.Header.difficulty hrest) he' hx (hhash.trans hx)).1,
    (hseals h h' h h 0 0 .commit .commit _ ?_ hgap hgap' hf hf' (by rw [Wire.prepareSeal,hseal hf]; rfl)
      (by rw [Wire.prepareSeal,hseal hf']; rfl)).1⟩
  · rw [hb,hb']
    intro a c ha hc _
    simp_all
  · rw [hb,hb',hseal hf,hseal hf']
    intro a c ha hc heq
    simp only [keccak] at heq
    grind

end StableNet.Engine
