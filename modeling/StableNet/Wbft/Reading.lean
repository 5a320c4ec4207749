import StableNet.Wbft.Handlers
import StableNet.Wbft.Wire

/-! The messages on the wire as the core sees them: blocks, hashes, seals and signatures are read as terms. -/
namespace StableNet.Wbft.Wire
open Lib.Rlp
open Chain.Wire (Hash hashCodec)
variable {β : Type} {blk : BlockRlp β} {s s' : Signable β} {data : Bytes}

/-- A reading of bytes as terms. It tells hashes and seals apart, and gives a block and its hash matching terms. -/
structure Reading (blk : BlockRlp β) where
  block : β → Block
  hash : Hash → Chain.Hash
  sealOf : Bytes → Seal
  signature : Bytes → Signature
  block_injective : block.Injective
  hash_injective : hash.Injective
  sealOf_injective : sealOf.Injective
  hash_zero : hash 0 = .zero
  hash_block : ∀ b, hash (blk.hash b) = (block b).hash

namespace Reading
variable (R : Reading blk)

/-- The source is the signer, which is recovered from the signature. -/
def common (sequence round : ℕ) (signature : Bytes) : CommonPayload :=
  ⟨sequence,round,(R.signature signature).signer,R.signature signature⟩

def prepare (m : Prepare) : Wbft.Prepare :=
  ⟨R.common m.sequence m.round m.signature,R.hash m.digest,R.sealOf m.prepareSeal⟩

def commit (m : Commit) : Wbft.Commit :=
  ⟨R.common m.sequence m.round m.signature,R.hash m.digest,R.sealOf m.commitSeal⟩

def payload (p : SignedRoundChangePayload) : Wbft.SignedRoundChangePayload :=
  ⟨R.common p.sequence p.round p.signature,p.preparedRound,R.hash p.preparedDigest⟩

def roundChange (m : RoundChange β) : Wbft.RoundChange :=
  ⟨R.payload m.toSignedRoundChangePayload,m.preparedBlock.map R.block,m.justification.map R.prepare⟩

def preprepare (m : Preprepare β) : Wbft.Preprepare :=
  ⟨R.common m.sequence m.round m.signature,R.block m.proposal,m.justificationRoundChanges.map R.payload,
    m.justificationPrepares.map R.prepare⟩

def message : Message β → Wbft.Message
  | .preprepare m => .preprepare (R.preprepare m)
  | .prepare m => .prepare (R.prepare m)
  | .commit m => .commit (R.commit m)
  | .roundChange m => .roundChange (R.roundChange m)

/-- What the core takes to be signed. -/
def signed : Signable β → SigningPayload
  | .preprepare m => (R.preprepare m).encodePayloadForSigning
  | .prepare m => (R.prepare m).encodePayloadForSigning
  | .commit m => (R.commit m).encodePayloadForSigning
  | .roundChange p => (R.payload p).encodePayloadForSigning

lemma hash_eq_zero {x : Hash} : R.hash x = .zero ↔ x=0 := by
  rw [← R.hash_zero]
  exact R.hash_injective.eq_iff

lemma prepared_eq_iff {p p' : SignedRoundChangePayload} :
    (R.payload p).prepared=(R.payload p').prepared ↔ p.prepared=p'.prepared := by
  have hshown (q : SignedRoundChangePayload) :
      (q.prepared = .list [] ∧ (R.payload q).prepared=none) ∨ ∃ r,
        q.prepared = .list [Codec.nat.encode r,hashCodec.encode q.preparedDigest] ∧
        (R.payload q).prepared = some (r,R.hash q.preparedDigest) := by
    rw [Wbft.SignedRoundChangePayload.prepared,SignedRoundChangePayload.prepared,payload]
    cases q.preparedRound with
    | none => exact .inl ⟨rfl,rfl⟩
    | some r =>
      by_cases hd : q.preparedDigest=0
      · exact .inl ⟨if_pos hd,if_neg (not_not.mpr (R.hash_eq_zero.mpr hd))⟩
      · exact .inr ⟨r,if_neg hd,if_pos (mt R.hash_eq_zero.mp hd)⟩
  rcases hshown p with ⟨h,hr⟩ | ⟨r,h,hr⟩ <;> rcases hshown p' with ⟨h',hr'⟩ | ⟨r',h',hr'⟩ <;> rw [h,hr,h',hr']
  · simp
  · simp
  · simp
  · simp [Codec.encode_inj,R.hash_injective.eq_iff]

/-- The core takes two payloads to be signed alike exactly if their items on the wire are the same. -/
theorem signed_eq_iff : R.signed s = R.signed s' ↔ signingItem blk s = signingItem blk s' := by
  have hcode : signingItem blk s = signingItem blk s' ↔
      s.content.code=s'.content.code ∧ signingPayload blk s = signingPayload blk s' := by
    simp [signingItem,Codec.encode_inj]
  rw [hcode]
  cases s <;> cases s'
  case preprepare.preprepare m m' =>
    have hpayload : signingPayload blk (.preprepare m) = signingPayload blk (.preprepare m') ↔
        m.sequence=m'.sequence ∧ m.round=m'.round ∧ m.proposal=m'.proposal :=
      ⟨Preprepare.payload_inj,fun h => by simp [signingPayload,Preprepare.payload,h]⟩
    rw [hpayload]
    simp [signed,Wbft.Preprepare.encodePayloadForSigning,preprepare,common,Signable.content,
      R.block_injective.eq_iff]
  case prepare.prepare m m' =>
    simp [signed,Wbft.Prepare.encodePayloadForSigning,prepare,common,signingPayload,Signable.content,Codec.encode_inj,
      R.hash_injective.eq_iff,R.sealOf_injective.eq_iff]
  case commit.commit m m' =>
    simp [signed,Wbft.Commit.encodePayloadForSigning,commit,common,signingPayload,Signable.content,Codec.encode_inj,
      R.hash_injective.eq_iff,R.sealOf_injective.eq_iff]
  case roundChange.roundChange p p' =>
    simp [signed,Wbft.SignedRoundChangePayload.encodePayloadForSigning,signingPayload,Signable.content,
      SignedRoundChangePayload.encodePayloadInternal,Codec.encode_inj,R.prepared_eq_iff]
    exact Iff.rfl
  all_goals
    simp [signed,Wbft.Preprepare.encodePayloadForSigning,Wbft.Prepare.encodePayloadForSigning,
      Wbft.Commit.encodePayloadForSigning,Wbft.SignedRoundChangePayload.encodePayloadForSigning,Signable.content,
      preprepareCode,prepareCode,commitCode,roundChangeCode]

lemma hash_of_decodeRLP {x : Item} {m : RoundChange β} (h : RoundChange.decodeRLP blk x = some m) :
    ∀ b ∈ m.preparedBlock, blk.hash b=m.preparedDigest := by
  unfold RoundChange.decodeRLP at h
  split at h
  · simp only [Option.bind_eq_bind,Option.bind_eq_some_iff,Option.some.injEq] at h
    obtain ⟨p,-,block,hblock,-,-,rfl⟩ := h
    intro b hb
    obtain rfl : block = some b := hb
    simp only [RoundChange.decodePreparedBlock] at hblock
    split at hblock
    · simp at hblock
    · simp only [Option.bind_eq_bind,Option.bind_eq_some_iff] at hblock
      obtain ⟨b',-,hb'⟩ := hblock
      split at hb'
      · next heq => cases hb'; exact heq
      · cases hb'
  · cases h

/-- What decodes from bytes passes the check of the core on decoded messages. -/
theorem decodes_message {m : Message β} (h : decode blk m.code data = .ok m) : Core.decodes (R.message m) := by
  cases m with
  | roundChange m =>
    obtain ⟨x,-,hm⟩ := decode_roundChange h
    have hblock := hash_of_decodeRLP hm
    cases hb : m.preparedBlock with
    | none => simp [message,roundChange,Core.decodes,hb]
    | some b => simp [message,roundChange,payload,Core.decodes,hb,← hblock b hb,R.hash_block]
  | preprepare m => rfl
  | prepare m => rfl
  | commit m => rfl

end Reading

/-- Blocks that are their own hash, which is not zero. -/
def nonzeroBlocks : BlockRlp {x : Hash // x≠0} where
  encode b := .list [hashCodec.encode b.val]
  decode
    | .list [x] => (hashCodec.decode x).bind fun h => if h0 : h≠0 then some ⟨h,h0⟩ else none
    | _ => none
  hash b := b.val
  decode_encode b := by simp only [Codec.decode_encode,Option.bind_some,dif_pos b.property]
  encode_list _ := ⟨_,_,rfl⟩

def numbered (n : ℕ) (extra : Bytes) : Chain.Header :=
  ⟨⟨0,0,0,0,0,0,0,n,0,0,0,0,0,none,none,none,none,none⟩,.zero,.undecodable extra⟩

lemma hash_numbered_inj {n n' : ℕ} {b b' : Bytes} (h : (numbered n b).hash = (numbered n' b').hash) :
    n=n' ∧ b=b' := by
  have hterm : (numbered n b).rlpHash = (numbered n' b').rlpHash := h
  simpa [numbered,Chain.Header.rlpHash] using hterm

/-- They can be read: a block as a header with its number, a seal as one of a header with that extra data. -/
def nonzeroReading : Reading nonzeroBlocks where
  block b := ⟨numbered b.val.toNat []⟩
  hash x := if x=0 then .zero else (numbered x.toNat []).hash
  sealOf b := ⟨0,⟨(numbered 0 b).hash,.prepare⟩⟩
  signature _ := ⟨0,.roundChange 0 0 none⟩
  block_injective b b' h := Subtype.ext (BitVec.eq_of_toNat_eq (hash_numbered_inj (congrArg Block.hash h)).1)
  hash_injective x x' h := by
    dsimp only at h
    split_ifs at h with hx hx'
    · exact hx.trans hx'.symm
    · cases h
    · cases h
    · exact BitVec.eq_of_toNat_eq (hash_numbered_inj h).1
  sealOf_injective b b' h := (hash_numbered_inj (congrArg (·.preimage.roundHeader) h)).2
  hash_zero := if_pos rfl
  hash_block b := if_neg b.property

end StableNet.Wbft.Wire
