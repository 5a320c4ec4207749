import StableNet.Coin.NativeCoinAdapter
import StableNet.Evm.Blacklist
import StableNet.Evm.ReadOnly

/-! Static calls of the coin adapter: nothing stops `transfer` in a read-only frame, and the coin manager moves the
coins. -/
namespace StableNet.Coin
open Chain (Address Bytes)
open Lib Evm

/-- A static call changes nothing, unless a native manager is called to change something below it. -/
theorem staticCall_unchanged (vm : Vm) (n : ℕ) (caller addr : Address) (input : Bytes) (gas : ℕ) (w : World)
    (h : ∀ e ∈ w.keptSince (vm.staticCall (vm.exec n) caller addr input gas w).2, ¬e.Mutates) :
    Unchanged w.db (vm.staticCall (vm.exec n) caller addr input gas w).2.db := by
  obtain ⟨new,hkept,hpreserves⟩ := vm.staticCall_preserves n caller addr input gas w
  rw [World.keptSince_eq hkept] at h
  obtain ⟨hobj,hlogs⟩ := hpreserves.same h
  constructor
  · exact fun a => by rw [StateDB.getBalance_eq,StateDB.getBalance_eq,hobj]
  · exact fun a => by rw [StateDB.getNonce_eq,StateDB.getNonce_eq,hobj]
  · exact fun a => by rw [StateDB.getCode_eq,StateDB.getCode_eq,hobj]
  · exact fun a key => by rw [StateDB.getState_eq,StateDB.getState_eq,hobj]
  · exact fun a => by rw [StateDB.getExtra_eq,StateDB.getExtra_eq,hobj]
  · exact hlogs

namespace Holder
open SingleSender (sender account world creation)

def adapterCode : Bytes := [0xad]

def net : Network :=
  { SingleSender.net with
    interp := fun env c => if c.code=adapterCode then nativeCoinAdapter ⟨fun _ => 0,8282⟩ env c else .halt .stop }

def adapterStorage (slot : Slot) : Word :=
  if slot=coinManagerSlot then addressWord nativeCoinManagerAddress
  else if slot=accountManagerSlot then addressWord accountManagerAddress
  else if slot=totalSupplySlot then 2*10^18
  else 0

def adapter : StateObject :=
  { account with balance := 0, code := adapterCode, nonce := 1, storage := adapterStorage }

def holdings : World := world [(sender,{ account with balance := 2*10^18 }),(net.nativeCoinAdapter,adapter)]

def vm : Vm := net.vm creation SingleSender.walletCall

def payee : Address := 0xb0b

def transferInput (value : Word) : Bytes := encodeCall [0xa9,0x05,0x9c,0xbb] [addressWord payee,value]

/-- A static call of `transfer` moves coins and leaves a log. -/
theorem static_transfer_moves_coins :
    (vm.staticCall (vm.exec 2) sender net.nativeCoinAdapter (transferInput 5) 100000 holdings).1.err=none ∧
    ¬Unchanged holdings.db
      (vm.staticCall (vm.exec 2) sender net.nativeCoinAdapter (transferInput 5) 100000 holdings).2.db := by
  refine ⟨by decide +kernel,fun h => ?_⟩
  have hpaid :
      (vm.staticCall (vm.exec 2) sender net.nativeCoinAdapter (transferInput 5) 100000 holdings).2.db.getBalance
      payee=5 := by decide +kernel
  have hbefore : holdings.db.getBalance payee=0 := by decide +kernel
  rw [h.balance,hbefore] at hpaid
  exact absurd hpaid (by decide)

/-- The total supply can be read without a change. -/
theorem static_query_unchanged : Unchanged holdings.db
    (vm.staticCall (vm.exec 2) sender net.nativeCoinAdapter [0x18,0x16,0x0d,0xdd] 100000 holdings).2.db :=
  staticCall_unchanged vm 2 sender net.nativeCoinAdapter [0x18,0x16,0x0d,0xdd] 100000 holdings (by decide +kernel)

end Holder

end StableNet.Coin
