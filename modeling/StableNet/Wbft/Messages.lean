import StableNet.Wbft.Validator
import Mathlib.Order.Compare

/-! The four consensus messages. Signatures and seals are symbolic: each names its signer and what was signed. -/
namespace StableNet.Wbft
open Chain
variable {v y : View}

structure View where
  sequence : ℕ
  round : ℕ
  deriving DecidableEq

namespace View

/-- The lexicographic order of views. -/
def cmp (v y : View) : Ordering :=
  if v.sequence≠y.sequence then compare v.sequence y.sequence else compare v.round y.round

lemma cmp_eq_lt : v.cmp y = .lt ↔ v.sequence<y.sequence ∨ v.sequence=y.sequence ∧ v.round<y.round := by
  unfold cmp
  split
  · rw [compare_lt_iff_lt]; omega
  · rw [compare_lt_iff_lt]; omega

lemma cmp_eq_gt : v.cmp y = .gt ↔ y.sequence<v.sequence ∨ v.sequence=y.sequence ∧ y.round<v.round := by
  unfold cmp
  split
  · rw [compare_gt_iff_gt]; omega
  · rw [compare_gt_iff_gt]; omega

lemma cmp_eq_eq : v.cmp y = .eq ↔ v=y := by
  obtain ⟨s,r⟩ := v
  obtain ⟨s',r'⟩ := y
  unfold cmp
  split
  · rw [compare_eq_iff_eq]; simp_all
  · rw [compare_eq_iff_eq]; simp_all

lemma cmp_self_ne_gt (v : View) : v.cmp v ≠ .gt := by
  rw [cmp_eq_eq.mpr rfl]
  simp

lemma cmp_trans {z : View} (h : v.cmp y ≠ .gt) (h' : y.cmp z ≠ .gt) : v.cmp z ≠ .gt := by
  rw [Ne,cmp_eq_gt] at *
  omega

end View

/-- A proposed block; the body is fixed by the roots of the header. -/
structure Block where
  header : Header
  deriving DecidableEq

namespace Block

def number (b : Block) : ℕ := b.header.number

def hash (b : Block) : Hash := b.header.hash

end Block

/-- A BLS signature: the key that made it and the preimage it signs. -/
structure Seal where
  publicKey : PublicKey
  preimage : SealPreimage
  deriving DecidableEq

/-- What `EncodePayloadForSigning` encodes. The prepared part of a ROUND-CHANGE is present only if
both the prepared round and a nonzero prepared digest are. -/
inductive SigningPayload where
  | preprepare (sequence round : ℕ) (proposal : Block)
  | prepare (sequence round : ℕ) (digest : Hash) (prepareSeal : Seal)
  | commit (sequence round : ℕ) (digest : Hash) (commitSeal : Seal)
  | roundChange (sequence round : ℕ) (prepared : Option (ℕ × Hash))
  deriving DecidableEq

/-- An ECDSA signature: the account that made it and the payload it signs. -/
structure Signature where
  signer : Address
  payload : SigningPayload
  deriving DecidableEq

structure CommonPayload where
  sequence : ℕ
  round : ℕ
  source : Address
  signature : Signature
  deriving DecidableEq

namespace CommonPayload

def view (m : CommonPayload) : View := ⟨m.sequence,m.round⟩

end CommonPayload

structure Prepare extends CommonPayload where
  digest : Hash
  prepareSeal : Seal
  deriving DecidableEq

structure Commit extends CommonPayload where
  digest : Hash
  commitSeal : Seal
  deriving DecidableEq

structure SignedRoundChangePayload extends CommonPayload where
  preparedRound : Option ℕ
  preparedDigest : Hash
  deriving DecidableEq

structure RoundChange extends SignedRoundChangePayload where
  preparedBlock : Option Block
  justification : List Prepare
  deriving DecidableEq

structure Preprepare extends CommonPayload where
  proposal : Block
  justificationRoundChanges : List SignedRoundChangePayload
  justificationPrepares : List Prepare
  deriving DecidableEq

inductive Message where
  | preprepare (m : Preprepare)
  | prepare (m : Prepare)
  | commit (m : Commit)
  | roundChange (m : RoundChange)
  deriving DecidableEq

/-- Message codes, in the order the source compares them. -/
inductive Code where
  | preprepare
  | prepare
  | commit
  | roundChange
  deriving DecidableEq

namespace Code

def toNat : Code → ℕ
  | preprepare => 0x12
  | prepare => 0x13
  | commit => 0x14
  | roundChange => 0x15

end Code

def Preprepare.encodePayloadForSigning (m : Preprepare) : SigningPayload :=
  .preprepare m.sequence m.round m.proposal

def Prepare.encodePayloadForSigning (m : Prepare) : SigningPayload :=
  .prepare m.sequence m.round m.digest m.prepareSeal

def Commit.encodePayloadForSigning (m : Commit) : SigningPayload :=
  .commit m.sequence m.round m.digest m.commitSeal

/-- The prepared round and digest as they are encoded. -/
def SignedRoundChangePayload.prepared (p : SignedRoundChangePayload) : Option (ℕ × Hash) :=
  match p.preparedRound with
  | some r => if p.preparedDigest ≠ .zero then some (r,p.preparedDigest) else none
  | none => none

def SignedRoundChangePayload.encodePayloadForSigning (p : SignedRoundChangePayload) : SigningPayload :=
  .roundChange p.sequence p.round p.prepared

namespace Message

def common : Message → CommonPayload
  | preprepare m => m.toCommonPayload
  | prepare m => m.toCommonPayload
  | commit m => m.toCommonPayload
  | roundChange m => m.toCommonPayload

def code : Message → Code
  | preprepare _ => .preprepare
  | prepare _ => .prepare
  | commit _ => .commit
  | roundChange _ => .roundChange

def view (m : Message) : View := m.common.view

def source (m : Message) : Address := m.common.source

def encodePayloadForSigning : Message → SigningPayload
  | preprepare m => m.encodePayloadForSigning
  | prepare m => m.encodePayloadForSigning
  | commit m => m.encodePayloadForSigning
  | roundChange m => m.encodePayloadForSigning

end Message

/-- The account recovered from a signature; recovery on another payload yields no account. -/
def getSignatureAddress (data : SigningPayload) (sig : Signature) : Option Address :=
  if sig.payload=data then some sig.signer else none

def checkValidatorSignature (valSet : ValidatorSet) (data : SigningPayload) (sig : Signature) : Option Address := do
  let signer ← getSignatureAddress data sig
  let val ← valSet.getByAddress signer
  return val.address

lemma checkValidatorSignature_eq_some {valSet : ValidatorSet} {data : SigningPayload}
    {sig : Signature} {a : Address} (h : checkValidatorSignature valSet data sig = some a) :
    sig = ⟨a,data⟩ ∧ a ∈ valSet.members := by
  unfold checkValidatorSignature getSignatureAddress at h
  split at h
  · rename_i heq
    cases hv : valSet.getByAddress sig.signer with
    | none => simp [hv] at h
    | some val =>
      obtain ⟨_,hval⟩ := ValidatorSet.mem_of_getByAddress hv
      simp only [Option.bind_eq_bind,Option.bind_some,hv,Option.pure_def,Option.some.injEq] at h
      have hsig : sig.signer=a := hval.symm.trans h
      refine ⟨?_,ValidatorSet.mem_members_of_getByAddress (by rw [← hsig,hv]; rfl)⟩
      cases sig
      simp_all
  · simp at h

/-- Why `verifySeal` fails; `missingValidator` is the source's nil dereference. -/
inductive SealError where
  | missingValidator
  | invalidSigner
  deriving DecidableEq

def verifySeal (valSet : ValidatorSet) (header : Header) (round : ℕ) (sealType : SealType)
    (s : Seal) (sealer : Address) : Option SealError :=
  match valSet.getByAddress sealer with
  | none => some .missingValidator
  | some validator =>
    if s = ⟨validator.blsPublicKey,Chain.prepareSeal header round sealType⟩ then none
    else some .invalidSigner

/-- `verifySignatures` with the validator check `validate`: the sources of the message and of every
payload it carries are set to the recovered signers, or the message is refused. -/
def Prepare.verify (validate : SigningPayload → Signature → View → Option Address) (p : Prepare) : Option Prepare :=
  (validate p.encodePayloadForSigning p.signature p.view).map fun a => { p with source := a }

@[inherit_doc Prepare.verify]
def SignedRoundChangePayload.verify (validate : SigningPayload → Signature → View → Option Address)
    (p : SignedRoundChangePayload) : Option SignedRoundChangePayload :=
  (validate p.encodePayloadForSigning p.signature p.view).map fun a => { p with source := a }

@[inherit_doc Prepare.verify]
def Message.verifySignatures (validate : SigningPayload → Signature → View → Option Address) :
    Message → Option Message
  | .preprepare m => do
    let source ← validate m.encodePayloadForSigning m.signature m.view
    let roundChanges ← m.justificationRoundChanges.mapM (·.verify validate)
    let prepares ← m.justificationPrepares.mapM (·.verify validate)
    return .preprepare { m with
      source, justificationRoundChanges := roundChanges, justificationPrepares := prepares }
  | .prepare m => (m.verify validate).map .prepare
  | .commit m => do
    let source ← validate m.encodePayloadForSigning m.signature m.view
    return .commit { m with source }
  | .roundChange m => do
    let source ← validate m.encodePayloadForSigning m.signature m.view
    let justification ← m.justification.mapM (·.verify validate)
    return .roundChange { m with source, justification }

end StableNet.Wbft
