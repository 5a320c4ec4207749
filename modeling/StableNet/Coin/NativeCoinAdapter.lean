import StableNet.Evm.Solidity

/-! The `NativeCoinAdapter` contract as a program of the machine. No two of its variables share a slot. -/
namespace StableNet.Coin
open Chain (Address Bytes)
open Lib Evm Evm.Solidity
open Solidity

def masterMinterSlot : Slot := .base 0x0

def minterSlot (a : Address) : Slot := .mapping (.base 0x1) (addressWord a)

def minterAllowedSlot (a : Address) : Slot := .mapping (.base 0x2) (addressWord a)

def authorizationStateSlot (authorizer : Address) (nonce : Word) : Slot :=
  .mapping (.mapping (.base 0x3) (addressWord authorizer)) nonce

def permitNonceSlot (owner : Address) : Slot := .mapping (.base 0x4) (addressWord owner)

def coinManagerSlot : Slot := .base 0x6

def accountManagerSlot : Slot := .base 0x7

def nameSlot : Slot := .base 0x8

def symbolSlot : Slot := .base 0x9

def decimalsSlot : Slot := .base 0xa

def currencySlot : Slot := .base 0xb

def allowedSlot (owner spender : Address) : Slot :=
  .mapping (.mapping (.base 0xc) (addressWord owner)) (addressWord spender)

def totalSupplySlot : Slot := .base 0xd

def mintEventSig : Word := 0xab8530f87dc9b59234c4623bf917212bb2536d647574c8e7e5da92c2ede0c9f8

def burnEventSig : Word := 0xcc16f5dbb4873280815c1ee09dbd06736cffcc184412cf7a71a0fdb75d397ca5

def minterConfiguredEventSig : Word := 0x46980fca912ef9bcdbd36877427b6b90e860769f604e89c0e67720cece530d20

def minterRemovedEventSig : Word := 0xe94479a9f7e1952cc78f2d6baab678adc1b772d936c6583def489e524cb66692

def masterMinterChangedEventSig : Word := 0xdb66dfa9c6b8f5226fe9aac7e51897ae8ee94ac31dc70bb6c9900b2574b707e6

def approvalEventSig : Word := 0x8c5be1e5ebec7d5bd14f71427d1e84f3dd0314c0f7b2291e5b200ac8c7c3b925

def authorizationUsedEventSig : Word := 0x98de503528ee59b575ef0c0a2576a82497bfc029a5685b209e9ec333479b10a5

def authorizationCanceledEventSig : Word := 0x1cdd46ff242716cdaa72d159d339a485b3438398348d68f09d7c8c0a59353d81

def transferWithAuthorizationTypehash : Word := 0x7c7c6cdb67a18743f49ec6fa9b35f50d52ed05cbed4cc592e13b44501c1a2267

def receiveWithAuthorizationTypehash : Word := 0xd099cc98ef71107a616c4f0f941f04c322d8e254fe26b3c6668db87aae413de8

def cancelAuthorizationTypehash : Word := 0x158b0a9edf7a828aad02f63cd515c68ef2f50ba807396f6d12842833a1597429

def permitTypehash : Word := 0x6e71edae12b1b97f4d1f60370fef10105fa2faae0126114a169c64845d6126c9

def domainTypehash : Word := 0x8b73c3c69bb8fe3d512ecc4cf759cc79239f7b179b0ffacaa9a75d522b39400f

/-- What the contract reads of the chain it is on. -/
structure Domain where
  keccak256 : Bytes → Word
  chainId : ℕ

def version : Bytes := utf8 "1"

/-- `EIP712.makeDomainSeparator` -/
def Domain.makeDomainSeparator (domain : Domain) (c : Contract) (name version : Bytes) : Word :=
  domain.keccak256 (encodeWords [domainTypehash,domain.keccak256 name,domain.keccak256 version,
    BitVec.ofNat 256 domain.chainId,addressWord c.self])

def domainSeparator (domain : Domain) (c : Contract) : Program Word := do
  let name ← loadString nameSlot
  return domain.makeDomainSeparator c name version

/-- `MessageHashUtils.toTypedDataHash` -/
def Domain.toTypedDataHash (domain : Domain) (domainSeparator structHash : Word) : Word :=
  domain.keccak256 ([0x19,0x01]++encodeWord domainSeparator++encodeWord structHash)

/-- `abi.encodePacked(r, s, v)` -/
def packSignature (v : BitVec 8) (r s : Word) : Bytes := encodeWord r++encodeWord s++[v]

def maxSignatureS : Word := 0x7fffffffffffffffffffffffffffffff5d576e7357a4501ddfe92f46681b20a0

/-- `ecrecover`, which is the first precompiled contract; no answer stands for the zero address. -/
def ecrecover (digest v r s : Word) : Program Address := do
  let (success,result) ← lowLevelCall .staticCall 1 (encodeWords [digest,v,r,s])
  if success then return bytesToAddress (result.take 32) else revert result

/-- `ECRecover.recover` -/
def recover (digest : Word) (signature : Bytes) : Program Address := do
  require (signature.length == 65) "ECRecover: invalid signature length"
  let r := bytesToWord (signature.take 32)
  let s := bytesToWord ((signature.drop 32).take 32)
  let v := bytesToWord (signature.drop 64)
  require (s ≤ maxSignatureS) "ECRecover: invalid signature 's' value"
  require (v == 27 || v == 28) "ECRecover: invalid signature 'v' value"
  let signer ← ecrecover digest v r s
  require (signer != 0) "ECRecover: invalid signature"
  return signer

def isValidSignatureSelector : Bytes := [0x16,0x26,0xba,0x7e]

/-- `SignatureChecker.isValidERC1271SignatureNow` -/
def isValidERC1271SignatureNow (signer : Address) (digest : Word) (signature : Bytes) : Program Bool := do
  let (success,result) ← lowLevelCall .staticCall signer
    (encodeCall isValidSignatureSelector [digest,0x40]++encodeBytes signature)
  return success && 32 ≤ result.length && result.take 32 == isValidSignatureSelector++List.replicate 28 0

/-- `SignatureChecker.isValidSignatureNow`: an account with code is asked, for the others the key decides. -/
def isValidSignatureNow (signer : Address) (digest : Word) (signature : Bytes) : Program Bool := do
  let code : Bytes ← perform (.extCode signer)
  if code.isEmpty then
    let recovered ← recover digest signature
    return recovered == signer
  else isValidERC1271SignatureNow signer digest signature

def isBlacklisted (account : Address) : Program Bool := do
  let accountManager ← loadAddress accountManagerSlot
  let (success,result) ← lowLevelCall .staticCall accountManager
    (encodeCall accountManagerIsBlacklistedSelector [addressWord account])
  require success "NativeCoinAdapter: failed to query blacklist status"
  decodeBool result

def notBlacklisted (account : Address) : Program Unit := do
  let blacklisted ← isBlacklisted account
  require (!blacklisted) "NativeCoinAdapter: account is blacklisted"

namespace Internal

/-- A call of the coin manager that must succeed. -/
def coinManager (input : Bytes) (reason : String) : Program Unit := do
  let coinManager ← loadAddress coinManagerSlot
  let (success,_) ← lowLevelCall .call coinManager input
  require success reason

def transfer (src dst : Address) (value : Word) : Program Unit := do
  require (src != 0) "NativeCoinAdapter: transfer from the zero address"
  require (dst != 0) "NativeCoinAdapter: transfer to the zero address"
  let balance ← balanceOf src
  require (value ≤ balance) "NativeCoinAdapter: transfer amount exceeds balance"
  coinManager (encodeCall coinManagerTransferSelector [addressWord src,addressWord dst,value])
    "NativeCoinAdapter: transfer failed"

def approve (owner spender : Address) (value : Word) : Program Unit := do
  require (owner != 0) "NativeCoinAdapter: approve from the zero address"
  require (spender != 0) "NativeCoinAdapter: approve to the zero address"
  sstore (allowedSlot owner spender) value
  emit [approvalEventSig,addressWord owner,addressWord spender] (encodeWord value)

def increaseAllowance (owner spender : Address) (increment : Word) : Program Unit := do
  let allowed ← sload (allowedSlot owner spender)
  let value ← checkedAdd allowed increment
  approve owner spender value

def decreaseAllowance (owner spender : Address) (decrement : Word) : Program Unit := do
  let allowed ← sload (allowedSlot owner spender)
  require (decrement ≤ allowed) "NativeCoinAdapter: decreased allowance below zero"
  approve owner spender (allowed-decrement)

def requireUnusedAuthorization (authorizer : Address) (nonce : Word) : Program Unit := do
  let used ← loadBool (authorizationStateSlot authorizer nonce)
  require (!used) "NativeCoinAdapter: authorization is used or canceled"

def requireValidAuthorization (env : Env) (authorizer : Address) (nonce validAfter validBefore : Word) :
    Program Unit := do
  require (validAfter.toNat<env.time) "NativeCoinAdapter: authorization is not yet valid"
  require (env.time<validBefore.toNat) "NativeCoinAdapter: authorization is expired"
  requireUnusedAuthorization authorizer nonce

/-- The check of the signature of typed data. -/
def validSignature (domain : Domain) (c : Contract) (signer : Address) (dataHash : Word) (signature : Bytes) :
    Program Bool := do
  let separator ← domainSeparator domain c
  isValidSignatureNow signer (domain.toTypedDataHash separator dataHash) signature

/-- `_requireValidSignature`, and the same in `_permit`. -/
def requireValidSignature (domain : Domain) (c : Contract) (signer : Address) (dataHash : Word) (signature : Bytes)
    (reason : String) : Program Unit := do
  let valid ← validSignature domain c signer dataHash signature
  require valid reason

def eip3009Reason : String := "NativeCoinAdapter: invalid signature (EIP3009)"

def markAuthorizationAsUsed (authorizer : Address) (nonce : Word) : Program Unit := do
  sstore (authorizationStateSlot authorizer nonce) 1
  emit [authorizationUsedEventSig,addressWord authorizer,nonce] []

end Internal

/-- What the payer of a signed transfer has signed. -/
structure Authorization where
  src : Address
  dst : Address
  value : Word
  validAfter : Word
  validBefore : Word
  nonce : Word

def Domain.authorizationHash (domain : Domain) (typehash : Word) (a : Authorization) : Word :=
  domain.keccak256 (encodeWords
    [typehash,addressWord a.src,addressWord a.dst,a.value,a.validAfter,a.validBefore,a.nonce])

def Domain.cancellationHash (domain : Domain) (authorizer : Address) (nonce : Word) : Word :=
  domain.keccak256 (encodeWords [cancelAuthorizationTypehash,addressWord authorizer,nonce])

def Domain.permitHash (domain : Domain) (owner spender : Address) (value nonce deadline : Word) : Word :=
  domain.keccak256 (encodeWords [permitTypehash,addressWord owner,addressWord spender,value,nonce,deadline])

namespace Internal
variable (domain : Domain) (env : Env) (c : Contract)

/-- `_transferWithAuthorization`, and `_receiveWithAuthorization` after the check of the payee. -/
def transferWithAuthorization (typehash : Word) (a : Authorization) (signature : Bytes) : Program Unit := do
  requireValidAuthorization env a.src a.nonce a.validAfter a.validBefore
  requireValidSignature domain c a.src (domain.authorizationHash typehash a) signature eip3009Reason
  markAuthorizationAsUsed a.src a.nonce
  transfer a.src a.dst a.value

def cancelAuthorization (authorizer : Address) (nonce : Word) (signature : Bytes) : Program Unit := do
  requireUnusedAuthorization authorizer nonce
  requireValidSignature domain c authorizer (domain.cancellationHash authorizer nonce) signature eip3009Reason
  sstore (authorizationStateSlot authorizer nonce) 1
  emit [authorizationCanceledEventSig,addressWord authorizer,nonce] []

/-- The nonce is counted up before the signature is looked at. -/
def permit (owner spender : Address) (value deadline : Word) (signature : Bytes) : Program Unit := do
  require (deadline == BitVec.allOnes 256 || env.time ≤ deadline.toNat) "NativeCoinAdapter: permit is expired"
  let nonce ← sload (permitNonceSlot owner)
  let next ← checkedAdd nonce 1
  sstore (permitNonceSlot owner) next
  requireValidSignature domain c owner (domain.permitHash owner spender value nonce deadline) signature
    "NativeCoinAdapter: invalid signature (EIP2612)"
  approve owner spender value

end Internal

inductive Query where
  | totalSupply
  | balanceOf (account : Address)
  | allowance (owner spender : Address)
  | minterAllowance (minter : Address)
  | isMinter (account : Address)
  | masterMinter
  | authorizationState (authorizer : Address) (nonce : Word)
  | nonces (owner : Address)
  | domainSeparator
  | name
  | symbol
  | decimals
  | currency
  | version
  | typehash (value : Word)

/-- A call of the contract. The functions that take a signature as `v`, `r` and `s` pack it and are the same
as those that take its bytes. -/
inductive Call where
  | mint (dst : Address) (amount : Word)
  | burn (amount : Word)
  | transferFrom (src dst : Address) (value : Word)
  | transfer (dst : Address) (value : Word)
  | approve (spender : Address) (value : Word)
  | increaseAllowance (spender : Address) (increment : Word)
  | decreaseAllowance (spender : Address) (decrement : Word)
  | transferWithAuthorization (a : Authorization) (signature : Bytes)
  | receiveWithAuthorization (a : Authorization) (signature : Bytes)
  | cancelAuthorization (authorizer : Address) (nonce : Word) (signature : Bytes)
  | permit (owner spender : Address) (value deadline : Word) (signature : Bytes)
  | configureMinter (minter : Address) (minterAllowedAmount : Word)
  | removeMinter (minter : Address)
  | updateMasterMinter (newMasterMinter : Address)
  | query (q : Query)

namespace External
variable (domain : Domain) (env : Env) (c : Contract)

def onlyMinters : Program Unit := do
  let isMinter ← loadBool (minterSlot c.callerAddress)
  require isMinter "NativeCoinAdapter: caller is not a minter"

def onlyMasterMinter : Program Unit := do
  let masterMinter ← loadAddress masterMinterSlot
  require (c.callerAddress == masterMinter) "NativeCoinAdapter: caller is not the masterMinter"

def mint (dst : Address) (amount : Word) : Program Bytes := do
  onlyMinters c
  notBlacklisted c.callerAddress
  notBlacklisted dst
  require (dst != 0) "NativeCoinAdapter: mint to the zero address"
  require (amount != 0) "NativeCoinAdapter: mint amount not greater than 0"
  let mintingAllowedAmount ← sload (minterAllowedSlot c.callerAddress)
  require (amount ≤ mintingAllowedAmount) "NativeCoinAdapter: mint amount exceeds minterAllowance"
  let rest ← checkedSub mintingAllowedAmount amount
  sstore (minterAllowedSlot c.callerAddress) rest
  Internal.coinManager (encodeCall coinManagerMintSelector [addressWord dst,amount]) "NativeCoinAdapter: mint failed"
  let totalSupply ← sload totalSupplySlot
  let totalSupply ← checkedAdd totalSupply amount
  sstore totalSupplySlot totalSupply
  emit [mintEventSig,addressWord c.callerAddress,addressWord dst] (encodeWord amount)
  return encodeBool true

def burn (amount : Word) : Program Bytes := do
  onlyMinters c
  notBlacklisted c.callerAddress
  let balance ← balanceOf c.callerAddress
  require (amount != 0) "NativeCoinAdapter: burn amount not greater than 0"
  require (amount ≤ balance) "NativeCoinAdapter: burn amount exceeds balance"
  Internal.coinManager (encodeCall coinManagerBurnSelector [addressWord c.callerAddress,amount])
    "NativeCoinAdapter: burn failed"
  let totalSupply ← sload totalSupplySlot
  let totalSupply ← checkedSub totalSupply amount
  sstore totalSupplySlot totalSupply
  emit [burnEventSig,addressWord c.callerAddress] (encodeWord amount)
  return []

def transferFrom (src dst : Address) (value : Word) : Program Bytes := do
  notBlacklisted c.callerAddress
  notBlacklisted src
  notBlacklisted dst
  let allowed ← sload (allowedSlot src c.callerAddress)
  require (value ≤ allowed) "NativeCoinAdapter: transfer amount exceeds allowance"
  let allowed ← sload (allowedSlot src c.callerAddress)
  let rest ← checkedSub allowed value
  sstore (allowedSlot src c.callerAddress) rest
  Internal.transfer src dst value
  return encodeBool true

def transfer (dst : Address) (value : Word) : Program Bytes := do
  notBlacklisted c.callerAddress
  notBlacklisted dst
  Internal.transfer c.callerAddress dst value
  return encodeBool true

def approve (spender : Address) (value : Word) : Program Bytes := do
  notBlacklisted c.callerAddress
  notBlacklisted spender
  Internal.approve c.callerAddress spender value
  return encodeBool true

def increaseAllowance (spender : Address) (increment : Word) : Program Bytes := do
  notBlacklisted c.callerAddress
  notBlacklisted spender
  Internal.increaseAllowance c.callerAddress spender increment
  return encodeBool true

def decreaseAllowance (spender : Address) (decrement : Word) : Program Bytes := do
  notBlacklisted c.callerAddress
  notBlacklisted spender
  Internal.decreaseAllowance c.callerAddress spender decrement
  return encodeBool true

def transferWithAuthorization (a : Authorization) (signature : Bytes) : Program Bytes := do
  notBlacklisted a.src
  notBlacklisted a.dst
  Internal.transferWithAuthorization domain env c transferWithAuthorizationTypehash a signature
  return []

def receiveWithAuthorization (a : Authorization) (signature : Bytes) : Program Bytes := do
  notBlacklisted a.src
  notBlacklisted a.dst
  require (a.dst == c.callerAddress) "NativeCoinAdapter: caller must be the payee"
  Internal.transferWithAuthorization domain env c receiveWithAuthorizationTypehash a signature
  return []

def cancelAuthorization (authorizer : Address) (nonce : Word) (signature : Bytes) : Program Bytes := do
  Internal.cancelAuthorization domain c authorizer nonce signature
  return []

def permit (owner spender : Address) (value deadline : Word) (signature : Bytes) : Program Bytes := do
  notBlacklisted owner
  notBlacklisted spender
  Internal.permit domain env c owner spender value deadline signature
  return []

def configureMinter (minter : Address) (minterAllowedAmount : Word) : Program Bytes := do
  onlyMasterMinter c
  sstore (minterSlot minter) 1
  sstore (minterAllowedSlot minter) minterAllowedAmount
  emit [minterConfiguredEventSig,addressWord minter] (encodeWord minterAllowedAmount)
  return encodeBool true

def removeMinter (minter : Address) : Program Bytes := do
  onlyMasterMinter c
  sstore (minterSlot minter) 0
  sstore (minterAllowedSlot minter) 0
  emit [minterRemovedEventSig,addressWord minter] []
  return encodeBool true

def updateMasterMinter (newMasterMinter : Address) : Program Bytes := do
  onlyMasterMinter c
  require (newMasterMinter != 0) "NativeCoinAdapter: new masterMinter is the zero address"
  sstore masterMinterSlot (addressWord newMasterMinter)
  let masterMinter ← loadAddress masterMinterSlot
  emit [masterMinterChangedEventSig,addressWord masterMinter] []
  return []

def returnWord (p : Program Word) : Program Bytes := do
  let word ← p
  return encodeWord word

def returnBool (slot : Slot) : Program Bytes := do
  let b ← loadBool slot
  return encodeBool b

def returnString (slot : Slot) : Program Bytes := do
  let bytes ← loadString slot
  return encodeString bytes

def query : Query → Program Bytes
  | .totalSupply => returnWord (sload totalSupplySlot)
  | .balanceOf account => returnWord (balanceOf account)
  | .allowance owner spender => returnWord (sload (allowedSlot owner spender))
  | .minterAllowance minter => returnWord (sload (minterAllowedSlot minter))
  | .isMinter account => returnBool (minterSlot account)
  | .masterMinter => do
    let masterMinter ← loadAddress masterMinterSlot
    return encodeWord (addressWord masterMinter)
  | .authorizationState authorizer nonce => returnBool (authorizationStateSlot authorizer nonce)
  | .nonces owner => returnWord (sload (permitNonceSlot owner))
  | .domainSeparator => returnWord (Coin.domainSeparator domain c)
  | .name => returnString nameSlot
  | .symbol => returnString symbolSlot
  | .decimals => do
    let decimals ← sload decimalsSlot
    return encodeWord ((decimals.setWidth 8).setWidth 256)
  | .currency => returnString currencySlot
  | .version => return encodeString Coin.version
  | .typehash value => return encodeWord value

end External

def Call.run (domain : Domain) (env : Env) (c : Contract) : Call → Program Bytes
  | .mint dst amount => External.mint c dst amount
  | .burn amount => External.burn c amount
  | .transferFrom src dst value => External.transferFrom c src dst value
  | .transfer dst value => External.transfer c dst value
  | .approve spender value => External.approve c spender value
  | .increaseAllowance spender increment => External.increaseAllowance c spender increment
  | .decreaseAllowance spender decrement => External.decreaseAllowance c spender decrement
  | .transferWithAuthorization a signature => External.transferWithAuthorization domain env c a signature
  | .receiveWithAuthorization a signature => External.receiveWithAuthorization domain env c a signature
  | .cancelAuthorization authorizer nonce signature => External.cancelAuthorization domain c authorizer nonce signature
  | .permit owner spender value deadline signature =>
    External.permit domain env c owner spender value deadline signature
  | .configureMinter minter amount => External.configureMinter c minter amount
  | .removeMinter minter => External.removeMinter c minter
  | .updateMasterMinter newMasterMinter => External.updateMasterMinter c newMasterMinter
  | .query q => External.query domain c q

section Decoding
variable (input : Bytes)

def decodeAuthorization : Decoded Authorization := do
  let src ← decodeAddress input 0
  let dst ← decodeAddress input 1
  return ⟨src,dst,argWord input 2,argWord input 3,argWord input 4,argWord input 5⟩

def decodeParts (i : ℕ) : Decoded Bytes := do
  let v ← decodeUint8 input i
  return packSignature v (argWord input (i+1)) (argWord input (i+2))

def decode1 (f : Address → Call) : Decoded Call := do
  decodeHead input 1
  return f (← decodeAddress input 0)

def decode2 (f : Address → Word → Call) : Decoded Call := do
  decodeHead input 2
  return f (← decodeAddress input 0) (argWord input 1)

def decodeSigned (f : Authorization → Bytes → Call) (words : ℕ) (signature : Decoded Bytes) : Decoded Call := do
  decodeHead input words
  let a ← decodeAuthorization input
  return f a (← signature)

def decodeCancellation (words : ℕ) (signature : Decoded Bytes) : Decoded Call := do
  decodeHead input words
  let authorizer ← decodeAddress input 0
  return .cancelAuthorization authorizer (argWord input 1) (← signature)

def decodePermit (words : ℕ) (signature : Decoded Bytes) : Decoded Call := do
  decodeHead input words
  let owner ← decodeAddress input 0
  let spender ← decodeAddress input 1
  return .permit owner spender (argWord input 2) (argWord input 3) (← signature)

/-- The function that a selector names, with its arguments. -/
def decodeSelected (selector : ℕ) : Decoded Call :=
  match selector with
  | 0x40c10f19 => decode2 input .mint
  | 0x42966c68 => do
    decodeHead input 1
    return .burn (argWord input 0)
  | 0x23b872dd => do
    decodeHead input 3
    let src ← decodeAddress input 0
    return .transferFrom src (← decodeAddress input 1) (argWord input 2)
  | 0xa9059cbb => decode2 input .transfer
  | 0x095ea7b3 => decode2 input .approve
  | 0x39509351 => decode2 input .increaseAllowance
  | 0xa457c2d7 => decode2 input .decreaseAllowance
  | 0xe3ee160e => decodeSigned input .transferWithAuthorization 9 (decodeParts input 6)
  | 0xcf092995 => decodeSigned input .transferWithAuthorization 7 (decodeBytes input 6)
  | 0xef55bec6 => decodeSigned input .receiveWithAuthorization 9 (decodeParts input 6)
  | 0x88b7ab63 => decodeSigned input .receiveWithAuthorization 7 (decodeBytes input 6)
  | 0x5a049a70 => decodeCancellation input 5 (decodeParts input 2)
  | 0xb7b72899 => decodeCancellation input 3 (decodeBytes input 2)
  | 0xd505accf => decodePermit input 7 (decodeParts input 4)
  | 0x9fd5a6cf => decodePermit input 5 (decodeBytes input 4)
  | 0x4e44d956 => decode2 input .configureMinter
  | 0x3092afd5 => decode1 input .removeMinter
  | 0xaa20e1e4 => decode1 input .updateMasterMinter
  | 0x18160ddd => return .query .totalSupply
  | 0x70a08231 => decode1 input fun a => .query (.balanceOf a)
  | 0xdd62ed3e => do
    decodeHead input 2
    let owner ← decodeAddress input 0
    return .query (.allowance owner (← decodeAddress input 1))
  | 0x8a6db9c3 => decode1 input fun a => .query (.minterAllowance a)
  | 0xaa271e1a => decode1 input fun a => .query (.isMinter a)
  | 0x35d99f35 => return .query .masterMinter
  | 0xe94a0102 => decode2 input fun a nonce => .query (.authorizationState a nonce)
  | 0x7ecebe00 => decode1 input fun a => .query (.nonces a)
  | 0x3644e515 => return .query .domainSeparator
  | 0x06fdde03 => return .query .name
  | 0x95d89b41 => return .query .symbol
  | 0x313ce567 => return .query .decimals
  | 0xe5a6b10f => return .query .currency
  | 0x54fd4d50 => return .query .version
  | 0xa0cc6a68 => return .query (.typehash transferWithAuthorizationTypehash)
  | 0x7f2eecc3 => return .query (.typehash receiveWithAuthorizationTypehash)
  | 0xd9169487 => return .query (.typehash cancelAuthorizationTypehash)
  | 0x30adf81f => return .query (.typehash permitTypehash)
  | _ => .error []

def decodeCall : Decoded Call :=
  if input.length<4 then .error [] else decodeSelected input (BigEndian.decode (input.take 4))

end Decoding

/-- The code of the contract. None of its functions is payable. -/
def nativeCoinAdapter (domain : Domain) (env : Env) (c : Contract) : Program Bytes :=
  if c.value≠0 then revert []
  else
    match decodeCall c.input with
    | .error ret => revert ret
    | .ok call => call.run domain env c

end StableNet.Coin
