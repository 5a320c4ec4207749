import Mathlib.Data.List.Basic
import Mathlib.Algebra.Ring.Int.Defs
import Mathlib.Algebra.Order.Ring.Int

/-! Block headers, their extra data and the hashes taken of them. A hash is the term of what was hashed; undecodable
extra data is kept as it is. -/
namespace StableNet.Chain
variable {k r r' : ℕ} {s : SealerSet} {e : WBFTExtra} {h h' : Header}

abbrev Address := BitVec 160

instance : LawfulBEq Address := inferInstance

abbrev Bytes := List (BitVec 8)

abbrev PublicKey := ℕ

/-- One bit per validator index, eight to a byte, the lowest bit first. -/
abbrev SealerSet := Bytes

namespace SealerSet

/-- The sealers of one byte; `uint32(byteIndex*8+bitOffset)` truncates the index. -/
def sealersOfByte (byteIndex : ℕ) (b : BitVec 8) : List ℕ :=
  (List.range 8).filterMap fun bitOffset =>
    if b.getLsbD bitOffset then some ((byteIndex*8+bitOffset)%2^32) else none

/-- The loop over the bytes, from byte index `byteIndex` on. -/
def getSealersFrom (byteIndex : ℕ) : SealerSet → List ℕ
  | [] => []
  | b::s => sealersOfByte byteIndex b++getSealersFrom (byteIndex+1) s

def getSealers (s : SealerSet) : List ℕ := getSealersFrom 0 s

def setBit (b : BitVec 8) (i : ℕ) : BitVec 8 := b ||| BitVec.twoPow 8 i

/-- Set the bit of `index`, growing the set with zero bytes as needed. -/
def setSealer (s : SealerSet) (index : ℕ) : SealerSet :=
  let padded := s++List.replicate (index/8+1-s.length) 0
  padded.modify (index/8) (setBit · (index%8))

def isSealer (s : SealerSet) (index : ℕ) : Bool :=
  match s[index/8]? with
  | none => false
  | some b => b.getLsbD (index%8)

lemma mem_sealersOfByte {i : ℕ} {b : BitVec 8} (hk : (k+1)*8 ≤ 2^32)
    (h : i ∈ sealersOfByte k b) : k*8 ≤ i ∧ i<(k+1)*8 := by
  obtain ⟨o,ho,heq⟩ := List.mem_filterMap.mp h
  rw [List.mem_range] at ho
  split at heq
  · rw [Nat.mod_eq_of_lt (by omega),Option.some.injEq] at heq
    omega
  · simp at heq

lemma sealersOfByte_pairwise (k : ℕ) (b : BitVec 8) : (sealersOfByte k b).Pairwise (·<·) := by
  refine List.pairwise_filterMap.mpr (List.Pairwise.and_mem.mp List.pairwise_lt_range |>.imp ?_)
  rintro o o' ⟨ho,ho',hlt⟩ i hi j hj
  rw [List.mem_range] at ho ho'
  split at hi <;> split at hj <;> simp at hi hj
  omega

theorem getSealersFrom_pairwise (h : (k+s.length)*8 ≤ 2^32) :
    (getSealersFrom k s).Pairwise (·<·) ∧ ∀ i ∈ getSealersFrom k s, k*8 ≤ i := by
  induction s generalizing k with
  | nil => simp [getSealersFrom]
  | cons b s ih =>
    simp only [List.length_cons] at h
    obtain ⟨hpair,hlow⟩ := ih (k := k+1) (by omega)
    have hbyte {i : ℕ} (hi : i ∈ sealersOfByte k b) := mem_sealersOfByte (by omega) hi
    constructor
    · refine List.pairwise_append.mpr ⟨sealersOfByte_pairwise k b,hpair,fun i hi j hj => ?_⟩
      have := hbyte hi
      have := hlow j hj
      omega
    · intro i hi
      rcases List.mem_append.mp hi with hi | hi
      · exact (hbyte hi).1
      · have := hlow i hi
        omega

lemma getSealers_nodup (h : s.length ≤ 2^29) : (getSealers s).Nodup :=
  (getSealersFrom_pairwise (by omega)).1.imp Nat.ne_of_lt

end SealerSet

structure WBFTAggregatedSeal where
  sealers : SealerSet
  signature : Bytes
  deriving DecidableEq

structure Candidate where
  addr : Address
  diligence : ℕ
  deriving DecidableEq

/-- The validators of the next epoch, as indices into its candidates. -/
structure EpochInfo where
  candidates : List Candidate
  validators : List ℕ
  blsPublicKeys : List PublicKey
  deriving DecidableEq

namespace EpochInfo

def getCandidate (ei : EpochInfo) (index : ℕ) : Address :=
  match ei.candidates[index]? with
  | some c => c.addr
  | none => 0

def getValidators (ei : EpochInfo) : List Address := ei.validators.map ei.getCandidate

end EpochInfo

structure WBFTExtra where
  vanityData : Bytes
  randaoReveal : Bytes
  prevRound : ℕ
  prevPreparedSeal : Option WBFTAggregatedSeal
  prevCommittedSeal : Option WBFTAggregatedSeal
  round : ℕ
  preparedSeal : Option WBFTAggregatedSeal
  committedSeal : Option WBFTAggregatedSeal
  gasTip : Option ℕ
  epochInfo : Option EpochInfo
  deriving DecidableEq

/-- The extra data as it is hashed: without seals, under the given round. -/
def WBFTExtra.filtered (e : WBFTExtra) (round : ℕ) : WBFTExtra :=
  { e with preparedSeal := none, committedSeal := none, round := round }

/-- The extra data of a header, decoded where `rlp.DecodeBytes` succeeds. -/
inductive ExtraData where
  | undecodable (bytes : Bytes)
  | wbft (extra : WBFTExtra)
  deriving DecidableEq

/-- The header fields other than the parent hash and the extra data. The roots are opaque. -/
structure HeaderFields where
  uncleHash : ℕ
  coinbase : Address
  root : ℕ
  txHash : ℕ
  receiptHash : ℕ
  bloom : ℕ
  difficulty : ℕ
  number : ℕ
  gasLimit : ℕ
  gasUsed : ℕ
  time : ℕ
  mixDigest : ℕ
  nonce : ℕ
  baseFee : Option ℕ
  withdrawalsHash : Option ℕ
  blobGasUsed : Option ℕ
  excessBlobGas : Option ℕ
  parentBeaconRoot : Option ℕ
  deriving DecidableEq

/-- A header hash: the zero hash, the hash of a nil header, or that of an encoded header. -/
inductive Hash where
  | zero
  | nilHeader
  | header (parentHash : Hash) (fields : HeaderFields) (extra : ExtraData)
  deriving DecidableEq

structure Header extends HeaderFields where
  parentHash : Hash
  extra : ExtraData
  deriving DecidableEq

def wbftDefaultDifficulty : ℕ := 1

namespace Header

def extractWBFTExtra (h : Header) : Option WBFTExtra :=
  match h.extra with
  | .undecodable _ => none
  | .wbft e => some e

def rlpHash (h : Header) : Hash := .header h.parentHash h.toHeaderFields h.extra

/-- The seals are left out and the round is replaced. -/
def wbftFilteredHeaderWithRound (h : Header) (round : ℕ) : Option Header :=
  h.extractWBFTExtra.map fun e => { h with extra := .wbft (e.filtered round) }

def wbftFilteredHeader (h : Header) : Option Header := h.wbftFilteredHeaderWithRound 0

/-- The engine's headers hash without their seals. -/
def hash (h : Header) : Hash :=
  if h.difficulty=wbftDefaultDifficulty then
    match h.wbftFilteredHeader with
    | some filtered => filtered.rlpHash
    | none => h.rlpHash
  else h.rlpHash

def wbftHashWithRoundNumber (h : Header) (round : ℕ) : Hash :=
  match h.wbftFilteredHeaderWithRound round with
  | some filtered => filtered.rlpHash
  | none => .nilHeader

end Header

inductive SealType where
  | prepare
  | commit
  deriving DecidableEq

/-- The message a seal signs: the keccak hash of a round-stamped header hash and the seal type. -/
structure SealPreimage where
  roundHeader : Hash
  sealType : SealType
  deriving DecidableEq

/-- `PrepareSeal` of the core package. -/
def prepareSeal (h : Header) (round : ℕ) (sealType : SealType) : SealPreimage :=
  ⟨h.wbftHashWithRoundNumber round,sealType⟩

lemma WBFTExtra.filtered_inj {e' : WBFTExtra} (h : e.filtered r = e'.filtered r') :
    r=r' ∧ ∀ k, e.filtered k = e'.filtered k := by
  simp only [filtered,mk.injEq] at h ⊢
  exact ⟨h.2.2.2.2.2.1,fun k => by tauto⟩

namespace Header

lemma hash_ne_zero (h : Header) : h.hash ≠ .zero := by
  unfold hash
  split
  · split <;> simp [rlpHash]
  · simp [rlpHash]

theorem exists_hash_eq (h : Header) : ∃ e, h.hash = .header h.parentHash h.toHeaderFields e := by
  unfold hash wbftFilteredHeader wbftFilteredHeaderWithRound
  cases h.extractWBFTExtra <;> split <;> simp [rlpHash]

lemma number_eq_of_hash_eq (heq : h.hash=h'.hash) : h.number=h'.number := by
  obtain ⟨e,hh⟩ := h.exists_hash_eq
  obtain ⟨e',hh'⟩ := h'.exists_hash_eq
  rw [hh,hh'] at heq
  injection heq with _ hf _
  rw [hf]

lemma hash_of_wbft (hd : h.difficulty=wbftDefaultDifficulty)
    (he : h.extractWBFTExtra = some e) : h.hash = .header h.parentHash h.toHeaderFields (.wbft (e.filtered 0)) := by
  simp [hash,hd,wbftFilteredHeader,wbftFilteredHeaderWithRound,he,rlpHash]

/-- The round-stamped hash of a header of the engine determines its block hash and the round. -/
theorem hash_eq_of_wbftHash_eq (hd : h.difficulty=wbftDefaultDifficulty) (he : h.extractWBFTExtra = some e)
    (heq : h.wbftHashWithRoundNumber r = h'.wbftHashWithRoundNumber r') : h.hash=h'.hash ∧ r=r' := by
  cases he' : h'.extractWBFTExtra with
  | none => simp [wbftHashWithRoundNumber,wbftFilteredHeaderWithRound,he,he',rlpHash] at heq
  | some e' =>
    simp only [wbftHashWithRoundNumber,wbftFilteredHeaderWithRound,he,he',Option.map_some,
      rlpHash,Hash.header.injEq,ExtraData.wbft.injEq] at heq
    obtain ⟨hp,hf,hx⟩ := heq
    obtain ⟨hr,hk⟩ := WBFTExtra.filtered_inj hx
    have hd' : h'.difficulty=wbftDefaultDifficulty := by rw [← hf]; exact hd
    rw [hash_of_wbft hd he,hash_of_wbft hd' he',hp,hf,hk]
    exact ⟨rfl,hr⟩

end Header

end StableNet.Chain
