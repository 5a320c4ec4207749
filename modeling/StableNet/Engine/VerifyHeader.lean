import StableNet.Engine.Epoch

/-! Header verification of the engine. The BLS library, the randao signature and keccak are parameters. -/
namespace StableNet.Engine
open Chain Wbft

structure Crypto where
  /-- Whether a signature verifies for the aggregate of the keys. -/
  verifyAggregate : List PublicKey → SealPreimage → Bytes → Bool
  /-- The signature check of a randao reveal for a block number. -/
  checkSig : ℕ → Address → Bytes → Bool
  keccak : Bytes → ℕ

def verifyAggregatedSeal (crypto : Crypto) (valSet : ValidatorSet) (header : Header) (round : ℕ)
    (signedSeal : WBFTAggregatedSeal) (sealType : SealType) : Bool :=
  let sealers := SealerSet.getSealers signedSeal.sealers
  if sealers.length<valSet.quorumSize then false
  else
    match sealers.mapM valSet.getByIndex with
    | none => false
    | some vals => crypto.verifyAggregate (vals.map Validator.blsPublicKey)
        (prepareSeal header round sealType) signedSeal.signature

/-- The check of one aggregated seal, which must be present. -/
def checkSeal (crypto : Crypto) (valSet : ValidatorSet) (header : Header) (round : ℕ)
    (sealType : SealType) (empty invalid : VerifyError) : Option WBFTAggregatedSeal → Option VerifyError
  | none => some empty
  | some s =>
    if s.signature = [] then some empty
    else if verifyAggregatedSeal crypto valSet header round s sealType then none
    else some invalid

def verifySeals (crypto : Crypto) (header : Header) (validators : ValidatorSet) (extra : WBFTExtra) :
    Option VerifyError :=
  if header.number=0 then none
  else
    (checkSeal crypto validators header extra.round .prepare .emptyPreparedSeals .invalidPreparedSeals
      extra.preparedSeal).or
    (checkSeal crypto validators header extra.round .commit .emptyCommittedSeals .invalidCommittedSeals
      extra.committedSeal)

def verifyPrevSeals (crypto : Crypto) (parent : Header) (prevValidators : ValidatorSet)
    (extra : WBFTExtra) : Option VerifyError :=
  if parent.number=0 then none
  else
    (checkSeal crypto prevValidators parent extra.prevRound .prepare .emptyPrevPreparedSeals
      .invalidPrevPreparedSeals extra.prevPreparedSeal).or
    (checkSeal crypto prevValidators parent extra.prevRound .commit .emptyPrevCommittedSeals
      .invalidPrevCommittedSeals extra.prevCommittedSeal)

/-- The proposer is a validator and not blacklisted. -/
def verifySigner (chain : ChainReader) (header parent : Header) (validators : ValidatorSet) : Option VerifyError :=
  if header.number=0 then some .unknownBlock
  else if validators.getByAddress header.coinbase=none then some .unauthorized
  else
    match chain.stateAt parent.root with
    | none => some .stateUnavailable
    | some state => if state.isBlacklisted header.coinbase then some (.blacklistedSigner header.coinbase) else none

/-- `verifyGasTip` with the errors its caller skips left out: without system contracts, parent or
state nothing is checked. -/
def verifyGasTip (chain : ChainReader) (header : Header) (extra : WBFTExtra) : Option VerifyError :=
  if ¬ chain.config.anzeon.any (·.systemContracts) then none
  else
    match chain.getHeader header.parentHash (predNumber header.number) with
    | none => none
    | some parent =>
      if parent.root=0 then none
      else
        match chain.stateAt parent.root with
        | none => none
        | some state =>
          match state.gasTip with
          | none => some .gasTipContractUnavailable
          | some gasTip => if extra.gasTip = some gasTip then none else some (.gasTipMismatch extra.gasTip gasTip)

/-- The reveal is mixed into the last mix. -/
def calculateRandaoMix (crypto : Crypto) (prevRandaoMix : ℕ) (randaoReveal : Bytes) : ℕ :=
  prevRandaoMix ^^^ crypto.keccak randaoReveal

def verifyRandao (crypto : Crypto) (header parent : Header) (extra : WBFTExtra) : Option VerifyError :=
  if ¬ crypto.checkSig header.number header.coinbase extra.randaoReveal then some .randaoReveal
  else
    let mix := calculateRandaoMix crypto parent.mixDigest extra.randaoReveal
    if mix≠header.mixDigest then some (.randaoMix header.mixDigest mix) else none

def verifyGasFields (config : ChainConfig) (header parent : Header) : Option VerifyError :=
  if config.isLondon header.number then verifyEIP1559Header config parent header
  else
    match header.baseFee with
    | some fee => some (.invalidBaseFeeBeforeFork fee)
    | none => verifyGaslimit parent.gasLimit header.gasLimit

/-- The part of `verifyCascadingFields` after the parent has been found. -/
def verifyAgainstParent (c : Config) (crypto : Crypto) (chain : ChainReader) (header parent : Header)
    (validators prevValidators : ValidatorSet) (checkSeals : Bool) : Option VerifyError :=
  if header.time<(parent.time+(c.getConfig header.number).blockPeriod)%2^64 then
    some .invalidTimestamp
  else if header.gasLimit<header.gasUsed then some (.invalidGasUsed header.gasUsed header.gasLimit)
  else
    match verifyGasFields chain.config header parent with
    | some err => some err
    | none =>
      match verifySigner chain header parent validators with
      | some err => if err ≠ .stateUnavailable then some err else verifyExtra
      | none => verifyExtra
where
  verifyExtra : Option VerifyError :=
    match header.extractWBFTExtra with
    | none => some .invalidExtraDataFormat
    | some extra =>
      (if checkSeals then verifySeals crypto header validators extra else none).or
      ((verifyRandao crypto header parent extra).or
      ((if 1<header.number then verifyPrevSeals crypto parent prevValidators extra else none).or
      (verifyGasTip chain header extra)))

def verifyCascadingFields (c : Config) (crypto : Crypto) (chain : ChainReader) (header : Header)
    (validators prevValidators : ValidatorSet) (parents : List Header) (checkSeals : Bool) : Option VerifyError :=
  if header.number=0 then none
  else
    let parent := if parents = [] then chain.getHeader header.parentHash (header.number-1)
      else parents.getLast?
    match parent with
    | none => some .unknownAncestor
    | some parent =>
      if parent.number+1 ≠ header.number ∨ parent.hash≠header.parentHash then some .unknownAncestor
      else verifyAgainstParent c crypto chain header parent validators prevValidators checkSeals

/-- The fields that can be checked without any other header. The uncle hash of no uncles is `0`. -/
def verifyStandalone (c : Config) (chain : ChainReader) (now : ℕ) (header : Header) : Option VerifyError :=
  if 2^64 ≤ header.number then some .invalidBlockNumber
  else if now+c.allowedFutureBlockTime<header.time then some .futureBlock
  else if header.uncleHash≠0 then some .invalidUncleHash
  else if header.difficulty≠wbftDefaultDifficulty then some .invalidDifficulty
  else if Params.maxGasLimit<header.gasLimit then
    some (.invalidGasLimit header.gasLimit Params.maxGasLimit)
  else if chain.config.isShanghai header.number header.time then some .shanghaiUnsupported
  else if header.withdrawalsHash≠none then some .invalidWithdrawalsHash
  else if chain.config.isCancun header.number header.time then some .cancunUnsupported
  else if header.excessBlobGas≠none then some .invalidExcessBlobGas
  else if header.blobGasUsed≠none then some .invalidBlobGasUsed
  else if header.parentBeaconRoot≠none then some .invalidParentBeaconRoot
  else none

/-- `verifyHeader` of the engine. -/
def verifyHeaderWith (c : Config) (crypto : Crypto) (chain : ChainReader) (now : ℕ) (header : Header)
    (parents : List Header) (validators prevValidators : ValidatorSet) (checkSeals : Bool) : Option VerifyError :=
  (verifyStandalone c chain now header).or
    (verifyCascadingFields c crypto chain header validators prevValidators parents checkSeals)

/-- `verifyHeader` of the backend. -/
def verifyHeader (c : Config) (crypto : Crypto) (chain : ChainReader) (now : ℕ) (header : Header)
    (parents : List Header) : Option VerifyError :=
  match getValidatorsForVerifying c chain header parents with
  | .error err => some err
  | .ok (valSet,prevValSet) => verifyHeaderWith c crypto chain now header parents valSet prevValSet true

/-- `VerifyHeader` of the backend; `none` means that the header is accepted. -/
def backendVerifyHeader (c : Config) (crypto : Crypto) (chain : ChainReader) (now : ℕ)
    (header : Header) : Option VerifyError :=
  verifyHeader c crypto chain now header []

section Accepted

variable {c : Config} {crypto : Crypto} {chain : ChainReader} {header parent : Header}
  {valSet prevValSet : ValidatorSet} {parents : List Header} {extra : WBFTExtra}
variable {checkSeals : Bool} {now : ℕ}

lemma checkSeal_eq_none {round : ℕ} {sealType : SealType} {empty invalid : VerifyError}
    {s : Option WBFTAggregatedSeal} (h : checkSeal crypto valSet header round sealType empty invalid s=none) :
    ∃ x, s = some x ∧ verifyAggregatedSeal crypto valSet header round x sealType=true := by
  cases s with
  | none => simp [checkSeal] at h
  | some x =>
    refine ⟨x,rfl,?_⟩
    simp only [checkSeal] at h
    split at h
    · simp at h
    · split at h
      · assumption
      · simp at h

lemma verifySeals_eq_none (hn : header.number≠0) (h : verifySeals crypto header valSet extra=none) :
    ∃ x, extra.committedSeal = some x ∧ verifyAggregatedSeal crypto valSet header extra.round x .commit=true := by
  rw [verifySeals,if_neg hn,Option.or_eq_none_iff] at h
  exact checkSeal_eq_none h.2

structure Against (c : Config) (crypto : Crypto) (chain : ChainReader) (header parent : Header)
    (valSet prevValSet : ValidatorSet) (checkSeals : Bool) (extra : WBFTExtra) : Prop where
  time : (parent.time+(c.getConfig header.number).blockPeriod)%2^64 ≤ header.time
  gasUsed : header.gasUsed ≤ header.gasLimit
  gasFields : verifyGasFields chain.config header parent=none
  signer : verifySigner chain header parent valSet=none ∨
    verifySigner chain header parent valSet = some .stateUnavailable
  decoded : header.extractWBFTExtra = some extra
  seals : checkSeals=true → verifySeals crypto header valSet extra=none
  randao : verifyRandao crypto header parent extra=none
  prevSeals : 1<header.number → verifyPrevSeals crypto parent prevValSet extra=none
  gasTip : verifyGasTip chain header extra=none

lemma verifyExtra_eq_none :
    verifyAgainstParent.verifyExtra crypto chain header parent valSet prevValSet checkSeals=none ↔
      ∃ extra, header.extractWBFTExtra = some extra ∧ (checkSeals=true → verifySeals crypto header valSet extra=none) ∧
        verifyRandao crypto header parent extra=none ∧
        (1<header.number → verifyPrevSeals crypto parent prevValSet extra=none) ∧
        verifyGasTip chain header extra=none := by
  unfold verifyAgainstParent.verifyExtra
  cases header.extractWBFTExtra with
  | none => simp
  | some extra =>
    simp only [Option.or_eq_none_iff,ite_eq_right_iff,Option.some.injEq,exists_eq_left']

lemma verifyAgainstParent_eq_none : verifyAgainstParent c crypto chain header parent valSet prevValSet checkSeals=none ↔
      ∃ extra, Against c crypto chain header parent valSet prevValSet checkSeals extra := by
  constructor
  · intro h
    unfold verifyAgainstParent at h
    split at h
    · cases h
    rename_i htime
    split at h
    · cases h
    rename_i hgas
    split at h
    · cases h
    rename_i hfees
    have hsigner : (verifySigner chain header parent valSet=none ∨
        verifySigner chain header parent valSet = some .stateUnavailable) ∧
        verifyAgainstParent.verifyExtra crypto chain header parent valSet prevValSet checkSeals=none := by
      split at h
      · rename_i err herr
        split at h
        · cases h
        · rename_i hne
          rw [herr,Classical.not_not.mp hne]
          exact ⟨.inr rfl,h⟩
      · exact ⟨.inl ‹_›,h⟩
    obtain ⟨extra,he,hs,hr,hp,ht⟩ := verifyExtra_eq_none.mp hsigner.2
    exact ⟨extra,Nat.le_of_not_lt htime,Nat.le_of_not_lt hgas,hfees,hsigner.1,he,hs,hr,hp,ht⟩
  · rintro ⟨extra,h⟩
    have hextra := verifyExtra_eq_none.mpr ⟨extra,h.decoded,h.seals,h.randao,h.prevSeals,h.gasTip⟩
    unfold verifyAgainstParent
    rw [if_neg (Nat.not_lt.mpr h.time),if_neg (Nat.not_lt.mpr h.gasUsed),h.gasFields]
    dsimp only
    rcases h.signer with hs | hs
    · rw [hs]
      exact hextra
    · rw [hs]
      exact hextra

lemma verifyCascadingFields_eq_none (hn : header.number≠0)
    (h : verifyCascadingFields c crypto chain header valSet prevValSet parents checkSeals=none) :
    ∃ parent extra, parent.number+1 = header.number ∧ parent.hash=header.parentHash ∧
      Against c crypto chain header parent valSet prevValSet checkSeals extra := by
  unfold verifyCascadingFields at h
  rw [if_neg hn] at h
  dsimp only at h
  split at h
  · cases h
  · rename_i parent _
    split at h
    · cases h
    · rename_i hlink
      simp only [not_or,ne_eq,Classical.not_not] at hlink
      obtain ⟨extra,h⟩ := verifyAgainstParent_eq_none.mp h
      exact ⟨parent,extra,hlink.1,hlink.2,h⟩

lemma difficulty_of_verifyStandalone (h : verifyStandalone c chain now header=none) :
    header.difficulty=wbftDefaultDifficulty := by
  by_contra hne
  unfold verifyStandalone at h
  simp only [if_pos hne] at h
  split at h
  · simp at h
  split at h
  · simp at h
  split at h <;> simp at h

lemma number_of_verifyStandalone (h : verifyStandalone c chain now header=none) : header.number<2^64 := by
  by_contra hlt
  rw [verifyStandalone,if_pos (Nat.le_of_not_lt hlt)] at h
  cases h

lemma Against.signer_mem (h : Against c crypto chain header parent valSet prevValSet checkSeals extra) :
    ∃ val ∈ valSet.validators, val.address=header.coinbase := by
  have hne : valSet.getByAddress header.coinbase≠none := by
    intro hnone
    have := h.signer
    unfold verifySigner at this
    simp only [hnone,if_true] at this
    split at this <;> simp at this
  obtain ⟨val,hval⟩ := Option.ne_none_iff_exists'.mp hne
  exact ⟨val,ValidatorSet.mem_of_getByAddress hval⟩

lemma getValidators_of_verifying (h : getValidatorsForVerifying c chain header parents = .ok (valSet,prevValSet)) :
    getValidators c chain header.number header.parentHash parents = some valSet := by
  unfold getValidatorsForVerifying at h
  split at h
  · cases h
  split at h
  · cases h
  · rename_i w hw
    rw [hw]
    split at h
    · dsimp only at h
      split at h
      · cases h
      · split at h
        · cases h
        · cases h; rfl
    · cases h; rfl

section
variable (hn : header.number≠0) (h : backendVerifyHeader c crypto chain now header=none)
include hn h

lemma against_of_verifyHeader :
    ∃ valSet prevValSet parent extra, getValidators c chain header.number header.parentHash [] = some valSet ∧
      verifyStandalone c chain now header=none ∧ Against c crypto chain header parent valSet prevValSet true extra := by
  unfold backendVerifyHeader verifyHeader at h
  split at h
  · simp at h
  · rename_i valSet prevValSet hval
    rw [verifyHeaderWith,Option.or_eq_none_iff] at h
    obtain ⟨parent,extra,_,_,hag⟩ := verifyCascadingFields_eq_none hn h.2
    exact ⟨valSet,prevValSet,parent,extra,getValidators_of_verifying hval,h.1,hag⟩

/-- An accepted header is of the engine's difficulty and carries an aggregate of commit seals of its
validators over itself, under the round of its own extra data. -/
theorem committed_of_verifyHeader :
    ∃ valSet extra x, getValidators c chain header.number header.parentHash [] = some valSet ∧
      header.difficulty=wbftDefaultDifficulty ∧ header.extractWBFTExtra = some extra ∧
      extra.committedSeal = some x ∧ verifyAggregatedSeal crypto valSet header extra.round x .commit=true := by
  obtain ⟨valSet,_,_,extra,hval,hstand,hag⟩ := against_of_verifyHeader hn h
  obtain ⟨x,hx,hagg⟩ := verifySeals_eq_none hn (hag.seals rfl)
  exact ⟨valSet,extra,x,hval,difficulty_of_verifyStandalone hstand,hag.decoded,hx,hagg⟩

end

end Accepted

end StableNet.Engine
