import StableNet.Chain.Wire
import StableNet.Lib.Except
import Mathlib.Tactic.Tauto

/-! WBFT messages on the wire. Blocks have a codec of their own, which is a parameter; the source of a message is not
sent. -/
namespace StableNet.Wbft.Wire
open Lib Lib.Rlp Codec Option
open Chain.Wire (Hash hashCodec)
variable {p : SignedRoundChangePayload} {x : Item}

/-- The encoding of blocks: a list that is not empty and decodes to the same block. -/
structure BlockRlp (β : Type) where
  encode : β → Item
  decode : Item → Option β
  hash : β → Hash
  decode_encode : ∀ b, decode (encode b) = some b
  encode_list : ∀ b, ∃ x xs, encode b = .list (x::xs)

structure Prepare where
  sequence : ℕ
  round : ℕ
  digest : Hash
  prepareSeal : Bytes
  signature : Bytes
  deriving DecidableEq

structure Commit where
  sequence : ℕ
  round : ℕ
  digest : Hash
  commitSeal : Bytes
  signature : Bytes
  deriving DecidableEq

structure SignedRoundChangePayload where
  sequence : ℕ
  round : ℕ
  preparedRound : Option ℕ
  preparedDigest : Hash
  signature : Bytes
  deriving DecidableEq

structure RoundChange (β : Type) extends SignedRoundChangePayload where
  preparedBlock : Option β
  justification : List Prepare
  deriving DecidableEq

structure Preprepare (β : Type) where
  sequence : ℕ
  round : ℕ
  proposal : β
  justificationRoundChanges : List SignedRoundChangePayload
  justificationPrepares : List Prepare
  signature : Bytes
  deriving DecidableEq

def preprepareCode : ℕ := 0x12
def prepareCode : ℕ := 0x13
def commitCode : ℕ := 0x14
def roundChangeCode : ℕ := 0x15

def voteFields : Fields (ℕ × ℕ × Hash × Bytes) := .cons .nat (.cons .nat (.cons hashCodec (.one .bytes)))

def signedVote : Codec ((ℕ × ℕ × Hash × Bytes) × Bytes) := .struct (.cons (.struct voteFields) (.one .bytes))

def prepareCodec : Codec Prepare := signedVote.map
  ⟨fun v => ⟨v.1.1,v.1.2.1,v.1.2.2.1,v.1.2.2.2,v.2⟩,
    fun m => ((m.sequence,m.round,m.digest,m.prepareSeal),m.signature),fun _ => rfl,fun _ => rfl⟩

def commitCodec : Codec Commit := signedVote.map
  ⟨fun v => ⟨v.1.1,v.1.2.1,v.1.2.2.1,v.1.2.2.2,v.2⟩,
    fun m => ((m.sequence,m.round,m.digest,m.commitSeal),m.signature),fun _ => rfl,fun _ => rfl⟩

namespace SignedRoundChangePayload

/-- The prepared round and digest, left out if there is no round or the digest is zero. -/
def prepared (p : SignedRoundChangePayload) : Item :=
  match p.preparedRound with
  | none => .list []
  | some r =>
    if p.preparedDigest=0 then .list [] else .list [Codec.nat.encode r,hashCodec.encode p.preparedDigest]

def encodePayloadInternal (p : SignedRoundChangePayload) : Item :=
  .list [Codec.nat.encode p.sequence,Codec.nat.encode p.round,p.prepared]

def encodeRLP (p : SignedRoundChangePayload) : Item := .list [p.encodePayloadInternal,.bytes p.signature]

/-- The fields of the prepared list, which keep their zero values if it is empty. -/
def decodePrepared : List Item → Option (Option ℕ × Hash)
  | [] => some (none,0)
  | [r,digest] => do
    let preparedRound ← Codec.nat.decode r
    let preparedDigest ← hashCodec.decode digest
    some (some preparedRound,preparedDigest)
  | _ => none

def decodeRLP : Item → Option SignedRoundChangePayload
  | .list [.list [seq,r,.list prepared],sig] => do
    let sequence ← Codec.nat.decode seq
    let round ← Codec.nat.decode r
    let (preparedRound,preparedDigest) ← decodePrepared prepared
    let signature ← Codec.bytes.decode sig
    some ⟨sequence,round,preparedRound,preparedDigest,signature⟩
  | _ => none

end SignedRoundChangePayload

open Wire.SignedRoundChangePayload

/-- The stream finds an item of size zero: an empty string, an empty list or a single byte. -/
def SizeZero : Item → Prop
  | .bytes b => b = [] ∨ IsSingle b
  | .list xs => xs = []

instance : DecidablePred SizeZero
  | .bytes _ => inferInstanceAs (Decidable (_ ∨ _))
  | .list [] => isTrue rfl
  | .list (_::_) => isFalse (by simp [SizeZero])

section
variable {β : Type} (blk : BlockRlp β)

namespace RoundChange

def encodeRLP (m : RoundChange β) : Item :=
  .list [.list [m.encodePayloadInternal,.bytes m.signature],match m.preparedBlock with
    | none => .list []
    | some b => blk.encode b,
    prepareCodec.list.encode m.justification]

/-- The prepared block, which must have the prepared digest. -/
def decodePreparedBlock (preparedDigest : Hash) (x : Item) : Option (Option β) :=
  if SizeZero x then some none
  else do
    let b ← blk.decode x
    if blk.hash b=preparedDigest then some (some b) else none

def decodeJustification (x : Item) : Option (List Prepare) :=
  if SizeZero x then some [] else prepareCodec.list.decode x

def decodeRLP : Item → Option (RoundChange β)
  | .list [signed,block,prepares] => do
    let payload ← SignedRoundChangePayload.decodeRLP signed
    let preparedBlock ← decodePreparedBlock blk payload.preparedDigest block
    let justification ← decodeJustification prepares
    some { payload with preparedBlock, justification }
  | _ => none

end RoundChange

def decodeRoundChanges : List Item → Option (List SignedRoundChangePayload)
  | [] => some []
  | x::xs => do
    let p ← SignedRoundChangePayload.decodeRLP x
    let ps ← decodeRoundChanges xs
    some (p::ps)

namespace Preprepare

def payload (m : Preprepare β) : Item :=
  .list [Codec.nat.encode m.sequence,Codec.nat.encode m.round,blk.encode m.proposal]

def encodeRLP (m : Preprepare β) : Item :=
  .list [.list [m.payload blk,.bytes m.signature],
    .list [.list (m.justificationRoundChanges.map SignedRoundChangePayload.encodeRLP),
      prepareCodec.list.encode m.justificationPrepares]]

def decodeRLP : Item → Option (Preprepare β)
  | .list [.list [.list [seq,r,block],sig],.list [.list roundChanges,prepares]] => do
    let sequence ← Codec.nat.decode seq
    let round ← Codec.nat.decode r
    let proposal ← blk.decode block
    let signature ← Codec.bytes.decode sig
    let justificationPrepares ← prepareCodec.list.decode prepares
    let justificationRoundChanges ← decodeRoundChanges roundChanges
    some ⟨sequence,round,proposal,justificationRoundChanges,justificationPrepares,signature⟩
  | _ => none

end Preprepare

inductive Message (β : Type) where
  | preprepare (m : Preprepare β)
  | prepare (m : Prepare)
  | commit (m : Commit)
  | roundChange (m : RoundChange β)
  deriving DecidableEq

namespace Message

def code : Message β → ℕ
  | .preprepare _ => preprepareCode
  | .prepare _ => prepareCode
  | .commit _ => commitCode
  | .roundChange _ => roundChangeCode

def encodeRLP : Message β → Option Bytes
  | .preprepare m => encodeToBytes (m.encodeRLP blk)
  | .prepare m => prepareCodec.toBytes m
  | .commit m => commitCodec.toBytes m
  | .roundChange m => encodeToBytes (m.encodeRLP blk)

end Message

inductive DecodeError where
  | failedDecodePreprepare
  | failedDecodeCommit
  | failedDecodeRoundChange
  | invalidMessage
  deriving DecidableEq

/-- `Decode`: a PREPARE that does not decode is reported as a COMMIT. -/
def decode (code : ℕ) (data : Bytes) : Except DecodeError (Message β) :=
  if code=preprepareCode then
    orError .failedDecodePreprepare (((decodeBytes data).bind (Preprepare.decodeRLP blk)).map .preprepare)
  else if code=prepareCode then
    orError .failedDecodeCommit ((prepareCodec.ofBytes data).map .prepare)
  else if code=commitCode then
    orError .failedDecodeCommit ((commitCodec.ofBytes data).map .commit)
  else if code=roundChangeCode then
    orError .failedDecodeRoundChange (((decodeBytes data).bind (RoundChange.decodeRLP blk)).map .roundChange)
  else .error .invalidMessage

end

namespace SignedRoundChangePayload

/-- The prepared round and digest are both absent or both present. -/
def Coherent (p : SignedRoundChangePayload) : Prop := p.preparedRound=none ↔ p.preparedDigest=0

lemma decodePrepared_prepared (h : p.Coherent) :
    ∃ xs, p.prepared = .list xs ∧ decodePrepared xs = some (p.preparedRound,p.preparedDigest) := by
  unfold prepared
  cases hr : p.preparedRound with
  | none => exact ⟨[],rfl,by simp [decodePrepared,h.mp hr]⟩
  | some r =>
    have hd : p.preparedDigest≠0 := fun h0 => by simp [h.mpr h0] at hr
    exact ⟨_,if_neg hd,by simp [decodePrepared,Codec.decode_encode]⟩

lemma decodeRLP_encodeRLP (h : p.Coherent) : decodeRLP p.encodeRLP = some p := by
  obtain ⟨xs,hxs,hdecode⟩ := decodePrepared_prepared h
  simp [encodeRLP,encodePayloadInternal,hxs,decodeRLP,hdecode,Codec.decode_encode,Codec.bytes]

end SignedRoundChangePayload

section
variable {β : Type} {blk : BlockRlp β}

lemma not_sizeZero_encode (b : β) : ¬SizeZero (blk.encode b) := by
  obtain ⟨x,xs,h⟩ := blk.encode_list b
  simp [h,SizeZero]

namespace RoundChange

/-- The prepared round, digest and block are all absent, or all present and matching. -/
def Coherent (blk : BlockRlp β) (m : RoundChange β) : Prop :=
  m.toSignedRoundChangePayload.Coherent ∧
  match m.preparedBlock with
  | none => m.preparedRound=none
  | some b => m.preparedRound≠none ∧ blk.hash b=m.preparedDigest

lemma decodeJustification_encode (prepares : List Prepare) :
    decodeJustification (prepareCodec.list.encode prepares) = some prepares := by
  cases prepares with
  | nil => rfl
  | cons m prepares =>
    have hne : ¬SizeZero (prepareCodec.list.encode (m::prepares)) := by simp [Codec.list,SizeZero]
    rw [decodeJustification,if_neg hne,Codec.decode_encode]

lemma decodeRLP_encodeRLP {m : RoundChange β} (h : m.Coherent blk) : decodeRLP blk (m.encodeRLP blk) = some m := by
  have hp := SignedRoundChangePayload.decodeRLP_encodeRLP h.1
  rw [SignedRoundChangePayload.encodeRLP] at hp
  have hblock : decodePreparedBlock blk m.preparedDigest (match m.preparedBlock with
      | none => .list []
      | some b => blk.encode b) = some m.preparedBlock := by
    have h := h.2
    unfold decodePreparedBlock
    split at h
    · next heq => simp [heq,SizeZero]
    · next b heq => simp [heq,not_sizeZero_encode,blk.decode_encode,h.2]
  simp only [encodeRLP,decodeRLP,hp,bind_eq_bind,bind_some,hblock,decodeJustification_encode]

end RoundChange

lemma decodeRoundChanges_encode {ps : List SignedRoundChangePayload} (h : ∀ p ∈ ps, p.Coherent) :
    decodeRoundChanges (ps.map SignedRoundChangePayload.encodeRLP) = some ps := by
  induction ps with
  | nil => rfl
  | cons p ps ih =>
    obtain ⟨hp,hps⟩ := List.forall_mem_cons.mp h
    simp [decodeRoundChanges,SignedRoundChangePayload.decodeRLP_encodeRLP hp,ih hps]

lemma Preprepare.decodeRLP_encodeRLP {m : Preprepare β} (h : ∀ p ∈ m.justificationRoundChanges, p.Coherent) :
    decodeRLP blk (m.encodeRLP blk) = some m := by
  simp [encodeRLP,payload,decodeRLP,Codec.decode_encode,blk.decode_encode,decodeRoundChanges_encode h,Codec.bytes]

/-- Every ROUND-CHANGE in a message, nested ones included, is coherent. -/
def Message.Coherent (blk : BlockRlp β) : Message β → Prop
  | .preprepare m => ∀ p ∈ m.justificationRoundChanges, p.Coherent
  | .prepare _ => True
  | .commit _ => True
  | .roundChange m => m.Coherent blk

def hashBlocks : BlockRlp Hash where
  encode b := .list [hashCodec.encode b]
  decode
    | .list [x] => hashCodec.decode x
    | _ => none
  hash b := b
  decode_encode b := hashCodec.decode_encode b
  encode_list _ := ⟨_,_,rfl⟩

/-- What can be signed: the four messages, and the ROUND-CHANGE payloads nested in a PREPREPARE. -/
inductive Signable (β : Type) where
  | preprepare (m : Preprepare β)
  | prepare (m : Prepare)
  | commit (m : Commit)
  | roundChange (p : SignedRoundChangePayload)

/-- What a signature is about, besides code and view. -/
inductive Body (β : Type) where
  | proposal (block : β)
  | vote (digest : Hash) (sealBytes : Bytes)
  | prepared (preparedRound : Option ℕ) (preparedDigest : Hash)

structure Content (β : Type) where
  code : ℕ
  sequence : ℕ
  round : ℕ
  body : Body β

def Signable.content : Signable β → Content β
  | .preprepare m => ⟨preprepareCode,m.sequence,m.round,.proposal m.proposal⟩
  | .prepare m => ⟨prepareCode,m.sequence,m.round,.vote m.digest m.prepareSeal⟩
  | .commit m => ⟨commitCode,m.sequence,m.round,.vote m.digest m.commitSeal⟩
  | .roundChange p => ⟨roundChangeCode,p.sequence,p.round,.prepared p.preparedRound p.preparedDigest⟩

def signingPayload (blk : BlockRlp β) : Signable β → Item
  | .preprepare m => m.payload blk
  | .prepare m => (Codec.struct voteFields).encode (m.sequence,m.round,m.digest,m.prepareSeal)
  | .commit m => (Codec.struct voteFields).encode (m.sequence,m.round,m.digest,m.commitSeal)
  | .roundChange p => p.encodePayloadInternal

/-- The code and the payload, as they are signed. -/
def signingItem (blk : BlockRlp β) (s : Signable β) : Item :=
  .list [Codec.nat.encode s.content.code,signingPayload blk s]

def encodePayloadForSigning (blk : BlockRlp β) (s : Signable β) : Option Bytes :=
  encodeToBytes (signingItem blk s)

/-- It was decoded from bytes, a ROUND-CHANGE payload possibly from within a PREPREPARE. -/
def Decodable (blk : BlockRlp β) : Signable β → Prop
  | .preprepare m => ∃ data, decode blk preprepareCode data = .ok (.preprepare m)
  | .prepare m => ∃ data, decode blk prepareCode data = .ok (.prepare m)
  | .commit m => ∃ data, decode blk commitCode data = .ok (.commit m)
  | .roundChange p =>
    (∃ data m, decode blk roundChangeCode data = .ok (.roundChange m) ∧ m.toSignedRoundChangePayload=p) ∨
    ∃ data m, decode blk preprepareCode data = .ok (.preprepare m) ∧ p ∈ m.justificationRoundChanges

lemma decode_preprepare {data : Bytes} {m : Preprepare β} (h : decode blk preprepareCode data = .ok (.preprepare m)) :
    ∃ x : Item, x.Fits ∧ Preprepare.decodeRLP blk x = some m := by
  simp only [decode,if_true,orError_eq_ok,map_eq_some_iff,bind_eq_some_iff] at h
  obtain ⟨m',⟨x,hx,hm⟩,heq⟩ := h
  cases heq
  exact ⟨x,(decodeBytes_sound hx).2,hm⟩

lemma decode_roundChange {data : Bytes} {m : RoundChange β}
    (h : decode blk roundChangeCode data = .ok (.roundChange m)) :
    ∃ x : Item, x.Fits ∧ RoundChange.decodeRLP blk x = some m := by
  simp only [decode,roundChangeCode,preprepareCode,prepareCode,commitCode,Nat.reduceEqDiff,if_false,if_true,
    orError_eq_ok,map_eq_some_iff,bind_eq_some_iff] at h
  obtain ⟨m',⟨x,hx,hm⟩,heq⟩ := h
  cases heq
  exact ⟨x,(decodeBytes_sound hx).2,hm⟩

lemma mem_decodeRoundChanges {xs : List Item} {ps : List SignedRoundChangePayload}
    (h : decodeRoundChanges xs = some ps) (hp : p ∈ ps) : ∃ x ∈ xs, SignedRoundChangePayload.decodeRLP x = some p := by
  induction xs generalizing ps with
  | nil => cases h; cases hp
  | cons x xs ih =>
    simp only [decodeRoundChanges,bind_eq_bind,bind_eq_some_iff,Option.some.injEq] at h
    obtain ⟨q,hq,qs,hqs,rfl⟩ := h
    rcases List.mem_cons.mp hp with rfl | hp
    · exact ⟨x,List.mem_cons_self,hq⟩
    · obtain ⟨y,hy,hdec⟩ := ih hqs hp
      exact ⟨y,List.mem_cons_of_mem _ hy,hdec⟩

lemma Decodable.payload (h : Decodable blk (.roundChange p)) :
    ∃ x : Item, x.Fits ∧ SignedRoundChangePayload.decodeRLP x = some p := by
  rcases h with ⟨data,m,hdec,rfl⟩ | ⟨data,m,hdec,hp⟩
  · obtain ⟨x,hfits,hm⟩ := decode_roundChange hdec
    unfold RoundChange.decodeRLP at hm
    split at hm
    · simp only [bind_eq_bind,bind_eq_some_iff,Option.some.injEq] at hm
      obtain ⟨q,hq,_,_,_,_,rfl⟩ := hm
      exact ⟨_,hfits.of_mem List.mem_cons_self,hq⟩
    · cases hm
  · obtain ⟨x,hfits,hm⟩ := decode_preprepare hdec
    unfold Preprepare.decodeRLP at hm
    split at hm
    · next roundChanges prepares =>
      simp only [bind_eq_bind,bind_eq_some_iff,Option.some.injEq] at hm
      obtain ⟨_,_,_,_,_,_,_,_,_,_,rcs,hrcs,rfl⟩ := hm
      obtain ⟨y,hy,hdec⟩ := mem_decodeRoundChanges hrcs hp
      have hjust : (Item.list [.list roundChanges,prepares]).Fits :=
        hfits.of_mem (List.mem_cons_of_mem _ List.mem_cons_self)
      exact ⟨y,(hjust.of_mem List.mem_cons_self).of_mem hy,hdec⟩
    · cases hm

namespace SignedRoundChangePayload

lemma decodePrepared_cases {xs : List Item} {r : Option ℕ} {d : Hash} (h : decodePrepared xs = some (r,d)) :
    (xs = [] ∧ r=none ∧ d=0) ∨ ∃ k, r = some k ∧ xs = [Codec.nat.encode k,hashCodec.encode d] := by
  unfold decodePrepared at h
  split at h
  · cases h
    exact .inl ⟨rfl,rfl,rfl⟩
  · simp only [bind_eq_bind,bind_eq_some_iff,Option.some.injEq,Prod.mk.injEq] at h
    obtain ⟨k,hk,d',hd,rfl,rfl⟩ := h
    exact .inr ⟨k,rfl,by rw [encode_decode _ hk,encode_decode _ hd]⟩
  · cases h

lemma decodeRLP_cases (h : decodeRLP x = some p) :
    ∃ xs, x = .list [.list [Codec.nat.encode p.sequence,Codec.nat.encode p.round,.list xs],.bytes p.signature] ∧
      decodePrepared xs = some (p.preparedRound,p.preparedDigest) := by
  unfold decodeRLP at h
  split at h
  · next seq r xs sig =>
    simp only [bind_eq_bind,bind_eq_some_iff,Option.some.injEq] at h
    obtain ⟨n,hn,k,hk,pr,hpr,s,hs,rfl⟩ := h
    refine ⟨xs,?_,hpr⟩
    rw [encode_decode _ hn,encode_decode _ hk,← encode_decode _ hs]
    rfl
  · cases h

lemma digest_eq_zero (h : decodeRLP x = some p) (hr : p.preparedRound=none) : p.preparedDigest=0 := by
  obtain ⟨xs,-,hxs⟩ := decodeRLP_cases h
  rcases decodePrepared_cases hxs with ⟨-,-,hd⟩ | ⟨k,hk,-⟩
  · exact hd
  · simp [hr] at hk

lemma prepared_of_zero (h : p.preparedDigest=0) : p.prepared = .list [] := by
  unfold prepared
  cases p.preparedRound <;> simp [h]

lemma prepared_of_ne_zero {r : ℕ} (hr : p.preparedRound = some r)
    (h : p.preparedDigest≠0) : p.prepared = .list [Codec.nat.encode r,hashCodec.encode p.preparedDigest] := by
  rw [prepared,hr]
  exact if_neg h

theorem prepared_inj {p' : SignedRoundChangePayload} (hp : p.preparedRound=none → p.preparedDigest=0)
    (hp' : p'.preparedRound=none → p'.preparedDigest=0) (h : p.prepared=p'.prepared) :
    p.preparedDigest=p'.preparedDigest ∧ (p.preparedDigest=0 ∨ p.preparedRound=p'.preparedRound) := by
  by_cases hd : p.preparedDigest=0
  · by_cases hd' : p'.preparedDigest=0
    · exact ⟨hd.trans hd'.symm,.inl hd⟩
    · obtain ⟨r',hr'⟩ := ne_none_iff_exists'.mp (mt hp' hd')
      rw [prepared_of_zero hd,prepared_of_ne_zero hr' hd'] at h
      cases h
  · obtain ⟨r,hr⟩ := ne_none_iff_exists'.mp (mt hp hd)
    by_cases hd' : p'.preparedDigest=0
    · rw [prepared_of_ne_zero hr hd,prepared_of_zero hd'] at h
      cases h
    · obtain ⟨r',hr'⟩ := ne_none_iff_exists'.mp (mt hp' hd')
      rw [prepared_of_ne_zero hr hd,prepared_of_ne_zero hr' hd'] at h
      simp only [Item.list.injEq,List.cons.injEq,and_true] at h
      refine ⟨hashCodec.injective h.2,.inr ?_⟩
      rw [hr,hr',Codec.nat.injective h.1]

end SignedRoundChangePayload

theorem fits_signing_of_zero (hfits : x.Fits)
    (h : SignedRoundChangePayload.decodeRLP x = some p) (hd : p.preparedDigest=0) :
    (signingItem blk (.roundChange p)).Fits := by
  obtain ⟨xs,rfl,-⟩ := decodeRLP_cases h
  have hshort : (encodeAll [Codec.nat.encode p.sequence,Codec.nat.encode p.round,.list []]).length ≤
      (encodeAll [Codec.nat.encode p.sequence,Codec.nat.encode p.round,.list xs]).length := by
    have hnil : (encode (.list [])).length=1 := rfl
    have hpos := encode_pos (.list xs)
    simp only [encodeAll,List.length_append,List.length_nil,hnil]
    omega
  have hpayload := length_encode_list_mono hshort
  have hsig := encode_pos (.bytes p.signature)
  have hcode : (encode (Codec.nat.encode roundChangeCode)).length=1 := rfl
  simp only [Item.Fits,encodeAll,List.length_append,List.length_nil] at hfits
  simp only [signingItem,signingPayload,Signable.content,SignedRoundChangePayload.encodePayloadInternal,
    prepared_of_zero hd,Item.Fits,encodeAll,List.length_append,List.length_nil,hcode]
  omega

/-- Two ROUND-CHANGE payloads of one view that announce different prepared rounds, both under the zero
digest. -/
def Ambiguous (s s' : Signable β) : Prop :=
  ∃ p p', s = .roundChange p ∧ s' = .roundChange p' ∧ p.sequence=p'.sequence ∧ p.round=p'.round ∧
    p.preparedDigest=0 ∧ p'.preparedDigest=0 ∧ p.preparedRound≠p'.preparedRound

lemma vote_inj {n n' r r' : ℕ} {d d' : Hash} {b b' : Bytes}
    (h : (Codec.struct voteFields).encode (n,r,d,b) = (Codec.struct voteFields).encode (n',r',d',b')) :
    n=n' ∧ r=r' ∧ d=d' ∧ b=b' := by
  simpa using (Codec.struct voteFields).injective h

lemma Preprepare.payload_inj {m m' : Preprepare β} (h : m.payload blk = m'.payload blk) :
    m.sequence=m'.sequence ∧ m.round=m'.round ∧ m.proposal=m'.proposal := by
  simp only [Preprepare.payload,Item.list.injEq,List.cons.injEq,and_true] at h
  have hblock := blk.decode_encode m.proposal
  rw [h.2.2,blk.decode_encode] at hblock
  exact ⟨Codec.nat.injective h.1,Codec.nat.injective h.2.1,(Option.some.inj hblock).symm⟩

/-- The items that are signed determine the content, up to prepared rounds under the zero digest. -/
theorem content_of_signingItem {s s' : Signable β} (hs : Decodable blk s) (hs' : Decodable blk s')
    (h : signingItem blk s = signingItem blk s') (hamb : ¬Ambiguous s s') : s.content=s'.content := by
  rw [signingItem,signingItem,Item.list.injEq,List.cons.injEq,List.cons.injEq] at h
  obtain ⟨hcode,hpayload,-⟩ := h
  replace hcode := Codec.nat.injective hcode
  cases s <;> cases s' <;>
    simp only [Signable.content,preprepareCode,prepareCode,commitCode,roundChangeCode,Nat.reduceEqDiff] at hcode ⊢
  case preprepare m m' =>
    obtain ⟨hseq,hround,hblock⟩ := Preprepare.payload_inj hpayload
    rw [hseq,hround,hblock]
  case prepare m m' =>
    obtain ⟨hseq,hround,hdigest,hseal⟩ := vote_inj hpayload
    rw [hseq,hround,hdigest,hseal]
  case commit m m' =>
    obtain ⟨hseq,hround,hdigest,hseal⟩ := vote_inj hpayload
    rw [hseq,hround,hdigest,hseal]
  case roundChange p p' =>
    obtain ⟨x,-,hx⟩ := hs.payload
    obtain ⟨x',-,hx'⟩ := hs'.payload
    simp only [signingPayload,SignedRoundChangePayload.encodePayloadInternal,Item.list.injEq,List.cons.injEq,
      and_true] at hpayload
    have hseq := Codec.nat.injective hpayload.1
    have hround := Codec.nat.injective hpayload.2.1
    obtain ⟨hdigest,hzero⟩ := prepared_inj
      (digest_eq_zero hx) (digest_eq_zero hx') hpayload.2.2
    have hpr : p.preparedRound=p'.preparedRound := by
      by_contra hne
      have hd := hzero.resolve_right hne
      exact hamb ⟨p,p',rfl,rfl,hseq,hround,hd,hdigest ▸ hd,hne⟩
    rw [hseq,hround,hdigest,hpr]

/-- Signing payloads are unambiguous exactly for the pairs of decodable messages that are not two
ROUND-CHANGEs of one view with different prepared rounds under the zero digest. -/
theorem signing_unambiguous_iff (blk : BlockRlp β) (s s' : Signable β) (hs : Decodable blk s) (hs' : Decodable blk s') :
    (∀ data, encodePayloadForSigning blk s = some data → encodePayloadForSigning blk s' = some data →
      s.content=s'.content) ↔ ¬Ambiguous s s' := by
  constructor
  · rintro h ⟨p,p',rfl,rfl,hseq,hround,hd,hd',hne⟩
    obtain ⟨x,hfits,hx⟩ := hs.payload
    have hdata : encodePayloadForSigning blk (.roundChange p) = some (encode (signingItem blk (.roundChange p))) :=
      if_pos (fits_signing_of_zero hfits hx hd)
    have heq : signingItem blk (.roundChange p) = signingItem blk (.roundChange p') := by
      simp only [signingItem,signingPayload,Signable.content,SignedRoundChangePayload.encodePayloadInternal,
        SignedRoundChangePayload.prepared_of_zero hd,SignedRoundChangePayload.prepared_of_zero hd',hseq,hround]
    have hsame := h _ hdata (by rw [encodePayloadForSigning,← heq]; exact hdata)
    simp only [Signable.content,Content.mk.injEq,Body.prepared.injEq] at hsame
    exact hne hsame.2.2.2.1
  · intro hamb data h h'
    exact content_of_signingItem hs hs' (encodeToBytes_inj h h') hamb

/-- A ROUND-CHANGE of round 2 as it is sent, with the given prepared list. -/
def roundChangeData (prepared : List Item) : Bytes :=
  encode (.list [.list [.list [Codec.nat.encode 7,Codec.nat.encode 2,.list prepared],.bytes [1]],.list [],.list []])

/-- A ROUND-CHANGE that announces round 5 under the zero digest has the signature of one that announces
nothing. -/
theorem signature_moves_to_other_prepared_round : ∃ m m' signed,
    decode hashBlocks roundChangeCode (roundChangeData []) = .ok (.roundChange m) ∧
    decode hashBlocks roundChangeCode (roundChangeData [Codec.nat.encode 5,hashCodec.encode 0]) =
      .ok (.roundChange m') ∧
    encodePayloadForSigning hashBlocks (.roundChange m.toSignedRoundChangePayload) = some signed ∧
    encodePayloadForSigning hashBlocks (.roundChange m'.toSignedRoundChangePayload) = some signed ∧
    m.preparedRound=none ∧ m'.preparedRound = some 5 := by
  refine ⟨⟨⟨7,2,none,0,[1]⟩,none,[]⟩,⟨⟨7,2,some 5,0,[1]⟩,none,[]⟩,[0xc5,0x15,0xc3,7,2,0xc0],?_,?_,?_,?_,rfl,rfl⟩
  all_goals decide +kernel

/-- The payloads of a ROUND-CHANGE with and one without prepared round. -/
theorem signing_unambiguous_iff_prepared : ∃ s s' : Signable Hash, s≠s' ∧
    ((∀ data, encodePayloadForSigning hashBlocks s = some data →
      encodePayloadForSigning hashBlocks s' = some data → s.content=s'.content) ↔ ¬Ambiguous s s') := by
  refine ⟨.roundChange ⟨7,2,none,0,[1]⟩,.roundChange ⟨7,2,some 5,9,[1]⟩,by simp,
    signing_unambiguous_iff hashBlocks _ _ (.inl ⟨roundChangeData [],⟨⟨7,2,none,0,[1]⟩,none,[]⟩,?_,rfl⟩)
      (.inl ⟨roundChangeData [Codec.nat.encode 5,hashCodec.encode 9],⟨⟨7,2,some 5,9,[1]⟩,none,[]⟩,?_,rfl⟩)⟩
  all_goals decide +kernel

end

end StableNet.Wbft.Wire
