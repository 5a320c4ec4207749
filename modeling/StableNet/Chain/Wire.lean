import StableNet.Chain.Header
import StableNet.Lib.RlpCodec

/-! Headers as bytes: the encoding of the extra data and of the header, and the hashes taken of them.
Keccak is a parameter. A hash is `none` if there is no byte slice long enough for its preimage. -/
namespace StableNet.Chain.Wire
open Lib Lib.Rlp List Option
open Codec
variable {e' : WBFTExtra} {r r' : BitVec 32} {b : Bytes} {xs : List (Option Item)} {keccak : Bytes → Hash} {x : Hash}
  {t t' : SealType}

abbrev Hash := BitVec 256

def hashCodec : Codec Hash := .word 32 rfl

def addressCodec : Codec Address := .word 20 rfl

structure Candidate where
  addr : Address
  diligence : BitVec 64
  deriving DecidableEq

structure EpochInfo where
  candidates : List Candidate
  validators : List (BitVec 32)
  blsPublicKeys : List Bytes
  deriving DecidableEq

/-- The extra data. A nil gas tip is encoded as zero, and none decodes to nil. -/
structure WBFTExtra where
  vanityData : Bytes
  randaoReveal : Bytes
  prevRound : BitVec 32
  prevPreparedSeal : Option WBFTAggregatedSeal
  prevCommittedSeal : Option WBFTAggregatedSeal
  round : BitVec 32
  preparedSeal : Option WBFTAggregatedSeal
  committedSeal : Option WBFTAggregatedSeal
  gasTip : ℕ
  epochInfo : Option EpochInfo
  deriving DecidableEq

def aggregatedSealCodec : Codec WBFTAggregatedSeal := (struct (.cons .bytes (.one .bytes))).map
  ⟨fun v => ⟨v.1,v.2⟩,fun s => (s.sealers,s.signature),fun _ => rfl,fun _ => rfl⟩

def sealCodec : Codec (Option WBFTAggregatedSeal) := aggregatedSealCodec.nilable fun _ h => nomatch h

def candidateCodec : Codec Candidate := (struct (.cons addressCodec (.one (.uint 64)))).map
  ⟨fun v => ⟨v.1,v.2⟩,fun c => (c.addr,c.diligence),fun _ => rfl,fun _ => rfl⟩

def epochInfoCodec : Codec EpochInfo :=
  (struct (.cons candidateCodec.list (.cons (uint 32).list (.one bytes.list)))).map
    ⟨fun v => ⟨v.1,v.2.1,v.2.2⟩,fun e => (e.candidates,e.validators,e.blsPublicKeys),fun _ => rfl,fun _ => rfl⟩

def extraFields : Fields (Bytes × Bytes × BitVec 32 × Option WBFTAggregatedSeal × Option WBFTAggregatedSeal ×
    BitVec 32 × Option WBFTAggregatedSeal × Option WBFTAggregatedSeal × ℕ × Option EpochInfo) :=
  .cons .bytes <| .cons .bytes <| .cons (.uint 32) <| .cons sealCodec <| .cons sealCodec <| .cons (.uint 32) <|
    .cons sealCodec <| .cons sealCodec <| .cons .nat <| .one (epochInfoCodec.nilable fun _ h => nomatch h)

def extraCodec : Codec WBFTExtra := (struct extraFields).map
  ⟨fun ⟨vanity,randao,prevRound,prevPrepared,prevCommitted,round,prepared,committed,gasTip,epochInfo⟩ =>
      ⟨vanity,randao,prevRound,prevPrepared,prevCommitted,round,prepared,committed,gasTip,epochInfo⟩,
    fun e => (e.vanityData,e.randaoReveal,e.prevRound,e.prevPreparedSeal,e.prevCommittedSeal,e.round,
      e.preparedSeal,e.committedSeal,e.gasTip,e.epochInfo),fun _ => rfl,fun _ => rfl⟩

/-- The extra data as it is hashed: without seals, under the given round. -/
def WBFTExtra.filtered (e : WBFTExtra) (round : BitVec 32) : WBFTExtra :=
  { e with preparedSeal := none, committedSeal := none, round := round }

structure Header where
  parentHash : Hash
  uncleHash : Hash
  coinbase : Address
  root : Hash
  txHash : Hash
  receiptHash : Hash
  bloom : BitVec 2048
  difficulty : ℕ
  number : ℕ
  gasLimit : BitVec 64
  gasUsed : BitVec 64
  time : BitVec 64
  extra : Bytes
  mixDigest : Hash
  nonce : BitVec 64
  baseFee : Option ℕ
  withdrawalsHash : Option Hash
  blobGasUsed : Option (BitVec 64)
  excessBlobGas : Option (BitVec 64)
  parentBeaconRoot : Option Hash
  deriving DecidableEq

/-- Optional fields: each is written if it or a later one is set, an empty string if it is nil. -/
def optionalFields : List (Option Item) → List Item
  | [] => []
  | x::xs => if (x::xs).any Option.isSome then x.getD (.bytes [])::optionalFields xs else []

namespace Header

/-- The fields every header has, in the order of their encoding. -/
def required (h : Header) : List Item :=
  [hashCodec.encode h.parentHash,hashCodec.encode h.uncleHash,addressCodec.encode h.coinbase,
    hashCodec.encode h.root,hashCodec.encode h.txHash,hashCodec.encode h.receiptHash,
    (word 256 rfl).encode h.bloom,nat.encode h.difficulty,nat.encode h.number,
    (uint 64).encode h.gasLimit,(uint 64).encode h.gasUsed,(uint 64).encode h.time,
    .bytes h.extra,hashCodec.encode h.mixDigest,(word 8 rfl).encode h.nonce]

def optional (h : Header) : List (Option Item) :=
  [h.baseFee.map nat.encode,h.withdrawalsHash.map hashCodec.encode,
    h.blobGasUsed.map (uint 64).encode,h.excessBlobGas.map (uint 64).encode,
    h.parentBeaconRoot.map hashCodec.encode]

/-- The optional fields end with the last one present. -/
def encodeRLP (h : Header) : Item := .list (h.required++optionalFields h.optional)

def extractWBFTExtra (h : Header) : Option WBFTExtra := extraCodec.ofBytes h.extra

def wbftFilteredHeaderWithRound (h : Header) (round : BitVec 32) : Option Header := do
  let e ← h.extractWBFTExtra
  let payload ← extraCodec.toBytes (e.filtered round)
  some { h with extra := payload }

def wbftFilteredHeader (h : Header) : Option Header := h.wbftFilteredHeaderWithRound 0

def rlpHash (keccak : Bytes → Hash) (h : Header) : Option Hash := (encodeToBytes h.encodeRLP).map keccak

/-- The difficulty marks a header of the engine. -/
def hash (keccak : Bytes → Hash) (h : Header) : Option Hash :=
  if h.difficulty=wbftDefaultDifficulty then
    match h.wbftFilteredHeader with
    | some filtered => filtered.rlpHash keccak
    | none => h.rlpHash keccak
  else h.rlpHash keccak

/-- A nil header is encoded as the empty list. -/
def wbftHashWithRoundNumber (keccak : Bytes → Hash) (h : Header) (round : BitVec 32) : Option Hash :=
  match h.wbftFilteredHeaderWithRound round with
  | some filtered => filtered.rlpHash keccak
  | none => some (keccak [0xc0])

lemma wbftHashWithRoundNumber_eq {h f : Header} {r : BitVec 32} (hf : h.wbftFilteredHeaderWithRound r = some f)
    (keccak : Bytes → Hash) : h.wbftHashWithRoundNumber keccak r = f.rlpHash keccak := by
  rw [wbftHashWithRoundNumber,hf]

end Header

def SealType.toByte : SealType → BitVec 8
  | .prepare => 0
  | .commit => 1

/-- What `PrepareSeal` hashes. -/
def sealPreimage (keccak : Bytes → Hash) (h : Header) (round : BitVec 32) (sealType : SealType) : Option Bytes :=
  (h.wbftHashWithRoundNumber keccak round).map fun roundHeader =>
    BigEndian.encode 32 roundHeader.toNat++[SealType.toByte sealType]

def prepareSeal (keccak : Bytes → Hash) (h : Header) (round : BitVec 32) (sealType : SealType) : Option Hash :=
  (sealPreimage keccak h round sealType).map keccak

lemma encode_extra (e : WBFTExtra) : extraCodec.encode e =
    .list [.bytes e.vanityData,.bytes e.randaoReveal,(uint 32).encode e.prevRound,
      sealCodec.encode e.prevPreparedSeal,sealCodec.encode e.prevCommittedSeal,(uint 32).encode e.round,
      sealCodec.encode e.preparedSeal,sealCodec.encode e.committedSeal,nat.encode e.gasTip,
      (epochInfoCodec.nilable fun _ h => nomatch h).encode e.epochInfo] := rfl

namespace WBFTExtra

lemma filtered_inj {e : WBFTExtra} (h : e.filtered r = e'.filtered r') : r=r' ∧ ∀ k, e.filtered k = e'.filtered k := by
  simp only [filtered,mk.injEq] at h ⊢
  obtain ⟨h1,h2,h3,h4,h5,h6,-,-,h9,h10⟩ := h
  exact ⟨h6,fun k => ⟨h1,h2,h3,h4,h5,trivial,trivial,trivial,h9,h10⟩⟩

theorem exists_toBytes_filtered {e : WBFTExtra} (h : extraCodec.toBytes e = some b) :
    ∃ payload, extraCodec.toBytes (e.filtered 0) = some payload := by
  rw [← isSome_iff_exists,toBytes,encodeToBytes_isSome]
  have hfits := encodeToBytes_isSome.mp (isSome_of_eq_some h)
  have hround := encode_pos ((uint 32).encode e.round)
  have hprepared := encode_pos (sealCodec.encode e.preparedSeal)
  have hcommitted := encode_pos (sealCodec.encode e.committedSeal)
  have hzero : (encode ((uint 32).encode 0)).length=1 := rfl
  have hnil : (encode (sealCodec.encode none)).length=1 := rfl
  simp only [encode_extra,Item.Fits,encodeAll,length_append,length_nil] at hfits
  simp only [encode_extra,filtered,Item.Fits,encodeAll,length_append,length_nil,hzero,hnil]
  omega

/-- Numbers in place of machine words and keys. -/
def toTerm (e : WBFTExtra) : Chain.WBFTExtra where
  vanityData := e.vanityData
  randaoReveal := e.randaoReveal
  prevRound := e.prevRound.toNat
  prevPreparedSeal := e.prevPreparedSeal
  prevCommittedSeal := e.prevCommittedSeal
  round := e.round.toNat
  preparedSeal := e.preparedSeal
  committedSeal := e.committedSeal
  gasTip := some e.gasTip
  epochInfo := e.epochInfo.map fun info => ⟨info.candidates.map fun c => ⟨c.addr,c.diligence.toNat⟩,
    info.validators.map (·.toNat),info.blsPublicKeys.map BigEndian.decode⟩

end WBFTExtra

/-- No field is nil before one that is set, as in every header that was decoded. -/
def Dense : List (Option Item) → Prop
  | [] => True
  | none::xs => ∀ x ∈ xs, x=none
  | some _::xs => Dense xs

lemma optionalFields_none (h : ∀ x ∈ xs, x=none) : optionalFields xs = [] := by
  cases xs with
  | nil => rfl
  | cons x xs =>
    rw [optionalFields,if_neg]
    simpa using h

lemma optionalFields_some (a : Item) (xs : List (Option Item)) :
    optionalFields (some a::xs) = a::optionalFields xs := by
  simp [optionalFields]

theorem optionalFields_inj {ys : List (Option Item)} (hlen : xs.length=ys.length) (hx : Dense xs)
    (hy : Dense ys) (h : optionalFields xs = optionalFields ys) : xs=ys := by
  induction xs generalizing ys with
  | nil => exact (length_eq_zero_iff.mp hlen.symm).symm
  | cons x xs ih =>
    obtain ⟨y,ys,rfl⟩ := exists_cons_of_length_eq_add_one hlen.symm
    rw [length_cons,length_cons,Nat.add_right_cancel_iff] at hlen
    cases x with
    | none =>
      have hxs : ∀ x ∈ none::xs, x=none := forall_mem_cons.mpr ⟨rfl,hx⟩
      rw [optionalFields_none hxs] at h
      cases y with
      | some b => simp [optionalFields_some] at h
      | none => rw [eq_replicate_of_mem hx,eq_replicate_of_mem hy,hlen]
    | some a =>
      cases y with
      | none => simp [optionalFields_some,optionalFields_none (forall_mem_cons.mpr ⟨rfl,hy⟩)] at h
      | some b =>
        rw [optionalFields_some,optionalFields_some,List.cons.injEq] at h
        rw [h.1,ih hlen hx hy h.2]

/-- Keccak has no collision among some inputs. -/
def NoCollision (keccak : Bytes → Hash) (inputs : List (Option Bytes)) : Prop :=
  ∀ a b, some a ∈ inputs → some b ∈ inputs → keccak a = keccak b → a=b

namespace Header
variable {h h' f : Header} {e : WBFTExtra}

def NoGap (h : Header) : Prop := Dense h.optional

/-- All but the extra data. -/
def rest (h : Header) : Header := { h with extra := [] }

lemma map_encode_inj {α : Type} {c : Codec α} {a b : Option α} (h : a.map c.encode = b.map c.encode) : a=b :=
  map_injective (fun _ _ => c.injective) h

lemma encodeRLP_inj (hgap : h.NoGap) (hgap' : h'.NoGap) (heq : h.encodeRLP=h'.encodeRLP) : h=h' := by
  rw [encodeRLP,encodeRLP,Item.list.injEq] at heq
  obtain ⟨hreq,hopt⟩ := append_inj heq (by simp [required])
  replace hopt := optionalFields_inj (by simp [optional]) hgap hgap' hopt
  simp only [required,List.cons.injEq,Item.bytes.injEq,and_true] at hreq
  simp only [optional,List.cons.injEq,and_true] at hopt
  obtain ⟨h1,h2,h3,h4,h5,h6,h7,h8,h9,h10,h11,h12,h13,h14,h15⟩ := hreq
  obtain ⟨h16,h17,h18,h19,h20⟩ := hopt
  cases h
  cases h'
  simp only [mk.injEq]
  exact ⟨injective _ h1,injective _ h2,injective _ h3,injective _ h4,
    injective _ h5,injective _ h6,injective _ h7,injective _ h8,injective _ h9,
    injective _ h10,injective _ h11,injective _ h12,h13,injective _ h14,
    injective _ h15,map_encode_inj h16,map_encode_inj h17,map_encode_inj h18,map_encode_inj h19,
    map_encode_inj h20⟩

lemma mem_optionalFields {x : Item} (h : x ∈ optionalFields xs) : x = .bytes [] ∨ some x ∈ xs := by
  induction xs with
  | nil => cases h
  | cons y ys ih =>
    rw [optionalFields] at h
    split_ifs at h
    · rcases mem_cons.mp h with rfl | h
      · cases y with
        | none => exact .inl rfl
        | some a => exact .inr mem_cons_self
      · exact (ih h).imp_right (mem_cons_of_mem _)
    · cases h

lemma length_optionalFields_le (xs : List (Option Item)) : (optionalFields xs).length ≤ xs.length := by
  induction xs with
  | nil => rfl
  | cons x xs ih =>
    rw [optionalFields]
    split_ifs
    · simpa using ih
    · simp

theorem fits (hd : h.difficulty<256^32) (hn : h.number<256^32)
    (hb : ∀ fee ∈ h.baseFee, fee<256^32) (he : h.extra.length<2^32) : h.encodeRLP.Fits := by
  have hword {n w : ℕ} {hw : w = 8*n} (hn : n ≤ 256) (v : BitVec w) :
      (encode ((word n hw).encode v)).length ≤ h.extra.length+300 :=
    (length_word_le (by omega) v).trans (by omega)
  have hnat {n : ℕ} (hn : n<256^32) : (encode (nat.encode n)).length ≤ h.extra.length+300 :=
    (length_nat_le hn (by decide)).trans (by omega)
  have huint (v : BitVec 64) : (encode ((uint 64).encode v)).length ≤ h.extra.length+300 :=
    (length_uint64_le v).trans (by omega)
  have hextra : (encode (.bytes h.extra)).length ≤ h.extra.length+300 :=
    (length_encode_bytes_le (by omega)).trans (by omega)
  have hhash (v : Hash) : (encode (hashCodec.encode v)).length ≤ h.extra.length+300 := hword (by decide) v
  have haddress (v : Address) : (encode (addressCodec.encode v)).length ≤ h.extra.length+300 := hword (by decide) v
  have hreq : ∀ x ∈ h.required, (encode x).length ≤ h.extra.length+300 := by
    simp only [required,forall_mem_cons]
    exact ⟨hhash _,hhash _,haddress _,hhash _,hhash _,hhash _,hword (by decide) _,hnat hd,hnat hn,huint _,huint _,
      huint _,hextra,hhash _,hword (by decide) _,forall_mem_nil _⟩
  have hopt : ∀ x ∈ optionalFields h.optional, (encode x).length ≤ h.extra.length+300 := by
    intro x hx
    rcases mem_optionalFields hx with rfl | hx
    · exact Nat.le_add_left _ _ |>.trans' (by decide)
    · simp only [optional,mem_cons,not_mem_nil,or_false,eq_comm (a := some x),map_eq_some_iff] at hx
      rcases hx with ⟨v,hv,rfl⟩ | ⟨v,-,rfl⟩ | ⟨v,-,rfl⟩ | ⟨v,-,rfl⟩ | ⟨v,-,rfl⟩
      · exact hnat (hb v hv)
      · exact hhash v
      · exact huint v
      · exact huint v
      · exact hhash v
  have hall := length_encodeAll_le (fun x hx => (mem_append.mp hx).elim (hreq x) (hopt x))
  have hlen := length_optionalFields_le h.optional
  have hlen15 : h.required.length=15 := rfl
  have hlen5 : h.optional.length=5 := rfl
  rw [length_append,hlen15] at hall
  rw [hlen5] at hlen
  calc (encodeAll (h.required++optionalFields h.optional)).length
      ≤ (15+(optionalFields h.optional).length)*(h.extra.length+300) := hall
    _ ≤ 20*(2^32+300) := Nat.mul_le_mul (by omega) (by omega)
    _<2^64 := by decide

lemma wbftFiltered_eq (he : h.extractWBFTExtra = some e) (r : BitVec 32) : h.wbftFilteredHeaderWithRound r =
      (extraCodec.toBytes (e.filtered r)).map fun payload => { h.rest with extra := payload } := by
  rw [wbftFilteredHeaderWithRound,he,bind_eq_bind,bind_some]
  cases extraCodec.toBytes (e.filtered r) <;> rfl

lemma wbftFiltered_eq_some (hf : h.wbftFilteredHeaderWithRound r = some f) :
    ∃ e payload, h.extractWBFTExtra = some e ∧ extraCodec.toBytes (e.filtered r) = some payload ∧
      f = { h.rest with extra := payload } := by
  obtain ⟨e,he,-⟩ := bind_eq_some_iff.mp hf
  rw [wbftFiltered_eq he] at hf
  obtain ⟨payload,hp,rfl⟩ := map_eq_some_iff.mp hf
  exact ⟨e,payload,he,hp,rfl⟩

lemma hash_of_wbft (keccak : Bytes → Hash)
    (hd : h.difficulty=wbftDefaultDifficulty) (he : h.extractWBFTExtra = some e) :
    ∃ f, h.wbftFilteredHeader = some f ∧ h.hash keccak = f.rlpHash keccak := by
  obtain ⟨payload,hp⟩ := WBFTExtra.exists_toBytes_filtered ((ofBytes_eq_some_iff _).mp he)
  have hf : h.wbftFilteredHeader = some { h.rest with extra := payload } := by
    rw [wbftFilteredHeader,wbftFiltered_eq he,hp,map_some]
  exact ⟨_,hf,by rw [hash,if_pos hd,hf]⟩

theorem same_of_wbftFiltered (he : h.extractWBFTExtra = some e) (he' : h'.extractWBFTExtra = some e')
    (hf : h.wbftFilteredHeaderWithRound r = some f) (hf' : h'.wbftFilteredHeaderWithRound r' = some f) :
    h.rest=h'.rest ∧ r=r' ∧ ∀ k, e.filtered k = e'.filtered k := by
  obtain ⟨e1,payload,he1,hp,rfl⟩ := wbftFiltered_eq_some hf
  obtain ⟨e2,payload',he2,hp',heq⟩ := wbftFiltered_eq_some hf'
  obtain rfl := Option.some.inj (he.symm.trans he1)
  obtain rfl := Option.some.inj (he'.symm.trans he2)
  have hpay := congrArg Header.extra heq
  have hrest := congrArg Header.rest heq
  have hsame : e.filtered r = e'.filtered r' :=
    extraCodec.injective (encodeToBytes_inj hp (by rw [show payload = payload' from hpay]; exact hp'))
  exact ⟨hrest,WBFTExtra.filtered_inj hsame⟩

/-- The bytes that are hashed under a round. -/
def preimage (h : Header) (round : BitVec 32) : Option Bytes :=
  (h.wbftFilteredHeaderWithRound round).bind fun filtered => encodeToBytes filtered.encodeRLP

lemma hash_eq_preimage (keccak : Bytes → Hash)
    (hd : h.difficulty=wbftDefaultDifficulty) (he : h.extractWBFTExtra = some e) :
    h.hash keccak = (h.preimage 0).map keccak := by
  obtain ⟨f,hf,hhash⟩ := hash_of_wbft keccak hd he
  rw [wbftFilteredHeader] at hf
  rw [hhash,preimage,hf,bind_some,rlpHash]

lemma isSome_preimage (he : h.extractWBFTExtra = some e)
    (hd : h.difficulty<256^32) (hn : h.number<256^32) (hb : ∀ fee ∈ h.baseFee, fee<256^32)
    (hfiltered : extraCodec.toBytes (e.filtered 0) = some b) (hlen : b.length<2^32) : (h.preimage 0).isSome := by
  rw [preimage,wbftFiltered_eq he,hfiltered,map_some,bind_some,encodeToBytes_isSome]
  exact fits hd hn hb hlen

lemma noGap_of_wbftFiltered (hgap : h.NoGap) (hf : h.wbftFilteredHeaderWithRound r = some f) : f.NoGap := by
  obtain ⟨e,payload,-,-,rfl⟩ := wbftFiltered_eq_some hf
  exact hgap

lemma filtered_eq_of_rlpHash {f' : Header} {inputs : List (Option Bytes)} (hfree : NoCollision keccak inputs)
    (hin : h.preimage r ∈ inputs) (hin' : h'.preimage r' ∈ inputs) (hgap : h.NoGap) (hgap' : h'.NoGap)
    (hf : h.wbftFilteredHeaderWithRound r = some f) (hf' : h'.wbftFilteredHeaderWithRound r' = some f')
    (hx : f.rlpHash keccak = some x) (hx' : f'.rlpHash keccak = some x) : f=f' := by
  obtain ⟨b,hb,rfl⟩ := map_eq_some_iff.mp hx
  obtain ⟨b',hb',hkeccak⟩ := map_eq_some_iff.mp hx'
  rw [preimage,hf,bind_some,hb] at hin
  rw [preimage,hf',bind_some,hb'] at hin'
  have hbytes := hfree b' b hin' hin hkeccak
  exact encodeRLP_inj (noGap_of_wbftFiltered hgap hf) (noGap_of_wbftFiltered hgap' hf')
    (encodeToBytes_inj hb (hbytes ▸ hb'))

/-- Headers of the engine with the same hash differ at most in the round and the seals. -/
theorem same_of_hash_eq (hfree : NoCollision keccak [h.preimage 0,h'.preimage 0]) (hgap : h.NoGap) (hgap' : h'.NoGap)
    (hd : h.difficulty=wbftDefaultDifficulty) (he : h.extractWBFTExtra = some e)
    (hd' : h'.difficulty=wbftDefaultDifficulty) (he' : h'.extractWBFTExtra = some e')
    (hx : h.hash keccak = some x) (hx' : h'.hash keccak = some x) : h.rest=h'.rest ∧ e.filtered 0 = e'.filtered 0 := by
  obtain ⟨f,hf,hhash⟩ := hash_of_wbft keccak hd he
  obtain ⟨f',hf',hhash'⟩ := hash_of_wbft keccak hd' he'
  rw [hhash] at hx
  rw [hhash'] at hx'
  obtain rfl := filtered_eq_of_rlpHash hfree (by simp) (by simp) hgap hgap' hf hf' hx hx'
  obtain ⟨hrest,-,hk⟩ := same_of_wbftFiltered he he' hf hf'
  exact ⟨hrest,hk 0⟩

section
variable (name : Hash → Chain.Hash)

/-- The header as a term: numbers in place of machine words, and names for the hashes of parents. -/
def toTerm (h : Header) : Chain.Header where
  parentHash := name h.parentHash
  uncleHash := h.uncleHash.toNat
  coinbase := h.coinbase
  root := h.root.toNat
  txHash := h.txHash.toNat
  receiptHash := h.receiptHash.toNat
  bloom := h.bloom.toNat
  difficulty := h.difficulty
  number := h.number
  gasLimit := h.gasLimit.toNat
  gasUsed := h.gasUsed.toNat
  time := h.time.toNat
  mixDigest := h.mixDigest.toNat
  nonce := h.nonce.toNat
  baseFee := h.baseFee
  withdrawalsHash := h.withdrawalsHash.map (·.toNat)
  blobGasUsed := h.blobGasUsed.map (·.toNat)
  excessBlobGas := h.excessBlobGas.map (·.toNat)
  parentBeaconRoot := h.parentBeaconRoot.map (·.toNat)
  extra := (h.extractWBFTExtra.map (ExtraData.wbft ·.toTerm)).getD (.undecodable h.extra)

lemma toTerm_filtered (hf : h.wbftFilteredHeaderWithRound r = some f) :
    (h.toTerm name).wbftFilteredHeaderWithRound r.toNat = some (f.toTerm name) := by
  obtain ⟨e,payload,he,hp,rfl⟩ := wbftFiltered_eq_some hf
  have hpayload : extraCodec.ofBytes payload = some (e.filtered r) := (ofBytes_eq_some_iff _).mpr hp
  simp only [Chain.Header.wbftFilteredHeaderWithRound,Chain.Header.extractWBFTExtra,toTerm,extractWBFTExtra] at he ⊢
  rw [he,hpayload]
  rfl

/-- Headers of the engine with the same hash have the same hash as terms. -/
theorem hash_toTerm (hfree : NoCollision keccak [h.preimage 0,h'.preimage 0]) (hgap : h.NoGap) (hgap' : h'.NoGap)
    (hd : h.difficulty=wbftDefaultDifficulty) (he : h.extractWBFTExtra = some e)
    (hd' : h'.difficulty=wbftDefaultDifficulty) (he' : h'.extractWBFTExtra = some e')
    (hx : h.hash keccak = some x) (hx' : h'.hash keccak = some x) : (h.toTerm name).hash=(h'.toTerm name).hash := by
  obtain ⟨f,hf,hhash⟩ := hash_of_wbft keccak hd he
  obtain ⟨f',hf',hhash'⟩ := hash_of_wbft keccak hd' he'
  obtain rfl := filtered_eq_of_rlpHash hfree (by simp) (by simp) hgap hgap' hf hf' (hhash ▸ hx) (hhash' ▸ hx')
  have hash_eq {h : Header} (hd : h.difficulty=wbftDefaultDifficulty) (hf : h.wbftFilteredHeader = some f) :
      (h.toTerm name).hash = (f.toTerm name).rlpHash := by
    have hfiltered : (h.toTerm name).wbftFilteredHeader = some (f.toTerm name) := toTerm_filtered name hf
    have hterm : (h.toTerm name).difficulty=wbftDefaultDifficulty := hd
    rw [Chain.Header.hash,if_pos hterm,hfiltered]
  rw [hash_eq hd hf,hash_eq hd' hf']

end

end Header

lemma toByte_inj (h : SealType.toByte t = SealType.toByte t') : t=t' := by
  cases t <;> cases t' <;> first | rfl | exact absurd h (by decide)

theorem sealPreimage_inj {h h' : Header} (hb : sealPreimage keccak h r t = some b)
    (hb' : sealPreimage keccak h' r' t' = some b) :
    ∃ x, h.wbftHashWithRoundNumber keccak r = some x ∧ h'.wbftHashWithRoundNumber keccak r' = some x ∧ t=t' := by
  obtain ⟨x,hx,rfl⟩ := map_eq_some_iff.mp hb
  obtain ⟨x',hx',heq⟩ := map_eq_some_iff.mp hb'
  obtain ⟨hbytes,hbyte⟩ := append_inj heq (by simp)
  have hxx : x'=x := (word 32 rfl).injective (congrArg Item.bytes hbytes)
  exact ⟨x,hx,hxx ▸ hx',(toByte_inj (singleton_inj.mp hbyte)).symm⟩

theorem same_of_prepareSeal_eq {h h' f f' : Header} (hfree : NoCollision keccak
      [h.preimage r,h'.preimage r',sealPreimage keccak h r t,sealPreimage keccak h' r' t'])
    (hgap : h.NoGap) (hgap' : h'.NoGap)
    (hf : h.wbftFilteredHeaderWithRound r = some f) (hf' : h'.wbftFilteredHeaderWithRound r' = some f')
    (hx : prepareSeal keccak h r t = some x) (hx' : prepareSeal keccak h' r' t' = some x) :
    h.wbftFilteredHeader=h'.wbftFilteredHeader ∧ r=r' ∧ t=t' := by
  obtain ⟨b,hb,rfl⟩ := map_eq_some_iff.mp hx
  obtain ⟨b',hb',hkeccak⟩ := map_eq_some_iff.mp hx'
  have hbytes := hfree b' b (by simp [hb']) (by simp [hb]) hkeccak
  obtain ⟨y,hy,hy',ht⟩ := sealPreimage_inj hb (hbytes ▸ hb')
  rw [Header.wbftHashWithRoundNumber_eq hf] at hy
  rw [Header.wbftHashWithRoundNumber_eq hf'] at hy'
  obtain rfl := Header.filtered_eq_of_rlpHash hfree (by simp) (by simp) hgap hgap' hf hf' hy hy'
  obtain ⟨e,payload,he,-⟩ := Header.wbftFiltered_eq_some hf
  obtain ⟨e',payload',he',-⟩ := Header.wbftFiltered_eq_some hf'
  obtain ⟨hrest,hr,hk⟩ := Header.same_of_wbftFiltered he he' hf hf'
  refine ⟨?_,hr,ht⟩
  rw [Header.wbftFilteredHeader,Header.wbftFilteredHeader,Header.wbftFiltered_eq he,Header.wbftFiltered_eq he',
    hrest,hk 0]

end StableNet.Chain.Wire
