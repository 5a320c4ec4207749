import StableNet.Evm.NativeManager
import StableNet.Genesis.GovValidator
import StableNet.Lib.MapTotal

/-! The allocation of a genesis, and `initializeCoinAdapter`, whose total supply is what the allocation holds. -/
namespace StableNet.Genesis
open Chain (Address Bytes)
open Lib

/-- `types.Account`. A balance may be missing; a missing storage map is empty. -/
structure Account where
  code : Bytes
  storage : Slot → ℕ
  balance : Option ℕ
  nonce : ℕ
  extra : BitVec 64

namespace Account

/-- What a map of accounts returns for an address that it does not have. -/
def zero : Account := ⟨[],fun _ => 0,none,0,0⟩

def coins (account : Account) : ℕ := account.balance.getD 0

def hasFlag (account : Account) (f : Evm.Flag) : Bool := Evm.Flag.hasBit account.extra f.mask

end Account

abbrev GenesisAlloc := AList fun _ : Address => Account

namespace GenesisAlloc

/-- The account, empty if none is allocated. -/
def get (alloc : GenesisAlloc) (addr : Address) : Account := (alloc.lookup addr).getD .zero

def totalCoins (alloc : GenesisAlloc) : ℕ := total Account.coins alloc

section
variable {alloc : GenesisAlloc} {a b : Address} {account : Account}

lemma get_insert : get (alloc.insert a account) b = if b=a then account else alloc.get b := by
  by_cases h : b=a
  · rw [h,get,AList.lookup_insert,if_pos rfl]
    rfl
  · rw [get,AList.lookup_insert_ne h,if_neg h,get]

lemma coins_get : (alloc.get a).coins = weightAt Account.coins alloc a := by
  cases h : alloc.lookup a with
  | none => simp [get,weightAt,h,Account.zero,Account.coins]
  | some account => simp [get,weightAt,h]

lemma totalCoins_insert : totalCoins (alloc.insert a account)+(alloc.get a).coins = alloc.totalCoins+account.coins := by
  rw [coins_get]
  exact total_insert

end

end GenesisAlloc

/-- A parameter that may be neither missing nor empty. -/
def adapterParam (param : Params) (key : String) : Except String String := do
  let value := (param key).getD ""
  require (value ≠ "") ("`systemContracts.nativeCoinAdapter.params`: missing parameter: " ++ key)
  return value

/-- One for each minter, or none at all. -/
def minterAllowedAmounts (param : Params) (minterCount : ℕ) : Except String (List (Option ℕ)) :=
  let minterAllowedStr := (param "minterAllowed").getD ""
  if minterAllowedStr = "" then return List.replicate minterCount none
  else do
    let minterAllowed := splitAndTrim minterAllowedStr
    require (minterCount=minterAllowed.length)
      "`systemContracts.nativeCoinAdapter.params`: the number of minters and minterAllowedAmounts must be the same"
    minterAllowed.mapM fun allowed =>
      match bigAbs (String.ofList allowed) with
      | none => .error "`systemContracts.nativeCoinAdapter.params`: invalid minterAllowed, must be decimal"
      | some allowedAmount => return some (allowedAmount%2^256)

def adapterMinterParams (address minter : Address) (minterAllowed : Option ℕ) : List StateParam :=
  ⟨address,calculateMappingSlot (.fixed 1) minter.toNat,1⟩ ::
    (minterAllowed.map fun amount => ⟨address,calculateMappingSlot (.fixed 2) minter.toNat,amount⟩).toList

def adapterMinters (address : Address) (param : Params) : Except String (List StateParam) :=
  let mintersStr := (param "minters").getD ""
  if mintersStr = "" then return []
  else do
    let minters := splitAndTrim mintersStr
    let amounts ← minterAllowedAmounts param minters.length
    return (minters.zip amounts).flatMap fun e => adapterMinterParams address (hexToAddress e.1) e.2

/-- The slots of a string: those of its bytes. -/
def encodeBytesToSlots (address : Address) (baseSlot : Slot) (s : String) : List StateParam :=
  makeMultipleParam address baseSlot
    (varLenBytesToMultipleHash ((s.toList.flatMap String.utf8EncodeChar).map UInt8.toBitVec))

def totalSupplySlot : Slot := .fixed 0xd

def initializeCoinAdapter (address : Address) (param : Params) (alloc : Option GenesisAlloc) :
    Except String (List StateParam) := do
  let masterMinter ← adapterParam param "masterMinter"
  let minters ← adapterMinters address param
  let coinName ← adapterParam param "name"
  let symbol ← adapterParam param "symbol"
  let decimalsStr ← adapterParam param "decimals"
  let decimals ← (parseUint decimalsStr 8).mapError ("`systemContracts.nativeCoinAdapter.params.decimals`: " ++ ·)
  let currency ← adapterParam param "currency"
  return [⟨address,.fixed 0,(hexToAddress masterMinter.toList).toNat⟩]++minters ++
    [⟨address,.fixed 6,Evm.nativeCoinManagerAddress.toNat⟩,⟨address,.fixed 7,Evm.accountManagerAddress.toNat⟩] ++
    encodeBytesToSlots address (.fixed 8) coinName++encodeBytesToSlots address (.fixed 9) symbol ++
    [⟨address,.fixed 0xa,decimals⟩]++encodeBytesToSlots address (.fixed 0xb) currency ++
    (alloc.map fun alloc => ⟨address,totalSupplySlot,alloc.totalCoins%2^256⟩).toList

/-- A state parameter belongs to a contract and to one of its declared slots. -/
def StateParam.Within (address : Address) (roots : List ℕ) (w : StateParam) : Prop :=
  w.address=address ∧ w.key.root ∈ roots

section
variable {address : Address} {param : Params} {states : List StateParam}

lemma adapterMinters_within (h : adapterMinters address param = .ok states) : ∀ w ∈ states, w.Within address [1,2] := by
  unfold adapterMinters at h
  dsimp only at h
  split at h
  · cases h
    exact fun w hw => by cases hw
  · obtain ⟨amounts,_,h⟩ := bind_eq_ok.mp h
    cases h
    intro w hw
    obtain ⟨⟨minter,allowed⟩,_,hw⟩ := List.mem_flatMap.mp hw
    rcases List.mem_cons.mp hw with rfl | hw
    · exact ⟨rfl,by simp⟩
    · obtain ⟨amount,_,rfl⟩ := Option.map_eq_some_iff.mp (Option.mem_toList.mp hw)
      exact ⟨rfl,by simp⟩

lemma makeMultipleParam_address {slot : Slot} {value : List ℕ} {w : StateParam}
    (hw : w ∈ makeMultipleParam address slot value) : w.address=address := by
  obtain ⟨⟨x,i⟩,_,rfl⟩ := List.mem_map.mp hw
  cases i with
  | zero => rfl
  | succ i => rfl

lemma encodeBytesToSlots_within {n : ℕ} {s : String} :
    ∀ w ∈ encodeBytesToSlots address (.fixed n) s, w.Within address [n] := fun _ hw =>
  ⟨makeMultipleParam_address hw,by simp [root_makeMultipleParam hw]⟩

theorem initializeCoinAdapter_eq_ok {alloc : Option GenesisAlloc}
    (h : initializeCoinAdapter address param alloc = .ok states) :
    ∃ others, others ≠ [] ∧ (∀ w ∈ others, w.Within address [0,1,2,6,7,8,9,0xa,0xb]) ∧
      states = others++(alloc.map fun alloc => ⟨address,totalSupplySlot,alloc.totalCoins%2^256⟩).toList := by
  obtain ⟨masterMinter,_,h⟩ := bind_eq_ok.mp h
  obtain ⟨minters,hminters,h⟩ := bind_eq_ok.mp h
  obtain ⟨coinName,_,h⟩ := bind_eq_ok.mp h
  obtain ⟨symbol,_,h⟩ := bind_eq_ok.mp h
  obtain ⟨decimalsStr,_,h⟩ := bind_eq_ok.mp h
  obtain ⟨decimals,_,h⟩ := bind_eq_ok.mp h
  obtain ⟨currency,_,h⟩ := bind_eq_ok.mp h
  cases h
  refine ⟨_,by simp,fun w hw => ?_,rfl⟩
  have hroots : ∀ {roots : List ℕ}, roots ⊆ [0,1,2,6,7,8,9,0xa,0xb] → w.Within address roots →
      w.Within address [0,1,2,6,7,8,9,0xa,0xb] := fun hsub hin => ⟨hin.1,hsub hin.2⟩
  simp only [List.mem_append,List.mem_cons,List.not_mem_nil,or_false] at hw
  rcases hw with (((((rfl | hw) | rfl | rfl) | hw) | hw) | rfl) | hw
  · exact ⟨rfl,by simp⟩
  · exact hroots (by simp) (adapterMinters_within hminters w hw)
  · exact ⟨rfl,by simp⟩
  · exact ⟨rfl,by simp⟩
  · exact hroots (by simp) (encodeBytesToSlots_within w hw)
  · exact hroots (by simp) (encodeBytesToSlots_within w hw)
  · exact ⟨rfl,by simp⟩
  · exact hroots (by simp) (encodeBytesToSlots_within w hw)

end

end StableNet.Genesis
