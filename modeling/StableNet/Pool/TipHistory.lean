import StableNet.Pool.Accounting
import StableNet.Pool.Executability

/-! The tip of a pooled transaction after two histories. Its cap is remembered from its first validation on. -/
namespace StableNet.Pool
open Chain (Header)
open Lib

lemma Tx.effectiveGasTip_eq_iff {chain : BlockChain} {env env' : AnzeonTipEnv} {caps caps' : TipCaps} {tx : Tx}
    {cap cap' : ℕ} (hbase : env.getBaseFee=env'.getBaseFee) (hcap : caps tx = some cap) (hcap' : caps' tx = some cap') :
    tx.effectiveGasTip chain env caps = tx.effectiveGasTip chain env' caps' ↔ ∀ baseFee, env.getBaseFee = some baseFee →
      cap=cap' ∨ (tx.gasFeeCap : ℤ)-baseFee ≤ cap ∧ (tx.gasFeeCap : ℤ)-baseFee ≤ cap' := by
  unfold effectiveGasTip
  rw [← hbase]
  cases env.getBaseFee with
  | none => simp
  | some baseFee =>
    simp only [hcap,hcap',Option.getD_some,Prod.mk.injEq,and_true,Option.some.injEq,forall_eq']
    omega

namespace LegacyPool

def Reachable (config : Config) (chain : BlockChain) (s : LegacyPool) : Prop :=
  ∃ gasTip head statedb locals walks ops, run config chain (init chain gasTip head statedb locals walks) ops = .ok s

lemma Reachable.inOrder {config : Config} {chain : BlockChain} {s : LegacyPool} (h : s.Reachable config chain) :
    s.InOrder := by
  obtain ⟨gasTip,head,statedb,locals,walks,ops,h⟩ := h
  exact ((InOrder.init chain gasTip head statedb locals walks).run ops).of_ok h

lemma InOrder.remembers {s : LegacyPool} {tx : Tx} (h : s.InOrder) (htx : s.all.get tx=true) :
    Remembers s.tipCaps s.admissions tx := by
  obtain ⟨c,h⟩ := h
  exact h.capped htx

namespace RaisedTip
open Sponsored (chain transfer world)

def head : Header := { Evm.SingleSender.creation.header with root := 1 }

def raised : Header := { head with extra := .wbft ⟨[],[],0,none,none,0,none,none,some 7,none⟩ }

def config : Config := ⟨false,10,16,5120,64,1024,by decide⟩

def start : LegacyPool := .init chain 0 head world.db [] fun _ => []

def arrival (tx : Tx) (cap : Option ℕ) : Arrival := ⟨tx,cap,true,fun _ => false⟩

/-- The transaction enters while the pool looks at another header. -/
def history (header : Header) (cap : Option ℕ) : List Op :=
  [.pending ⟨none,some header⟩,.add [arrival transfer cap] false,.pending ⟨none,some head⟩]

lemma run_history (header : Header) (cap : Option ℕ) (tip : ℕ) (henv : ((start.enter chain ⟨none,some header⟩).enter
      chain ⟨none,some head⟩).anzeonTipEnv = start.anzeonTipEnv)
    (htest : holds ((start.enter chain ⟨none,some header⟩).addTxs config chain [arrival transfer cap] false)
      (fun s => s.all.get transfer && s.tipCaps transfer = some tip)=true) :
    ∃ s, start.run config chain (history header cap) = .ok s ∧ s.currentHead=head ∧ s.currentState=world.db ∧
      s.anzeonTipEnv=start.anzeonTipEnv ∧ s.all.get transfer=true ∧ s.tipCaps transfer = some tip := by
  obtain ⟨s,hs,htest⟩ := exists_of_holds htest
  rw [Bool.and_eq_true,decide_eq_true_eq] at htest
  have hstart : (start.enter chain ⟨none,some header⟩).InOrder :=
    (InOrder.init chain 0 head world.db [] fun _ => []).congr rfl rfl rfl rfl rfl rfl
  obtain ⟨c,hbooks⟩ := hstart
  obtain rfl := hbooks.context
  obtain ⟨caps,admissions,hs'⟩ := (hbooks.addTxsLocked _ _).of_ok hs
  have hsame : s.anzeonTipEnv = (start.enter chain ⟨none,some header⟩).anzeonTipEnv :=
    congrArg Context.env hs'.context
  refine ⟨s.enter chain ⟨none,some head⟩,?_,congrArg Context.head hs'.context,congrArg Context.state hs'.context,
    ?_,htest.1,htest.2⟩
  · simp only [run,history,List.foldlM_cons,List.foldlM_nil,step,hs,ok_bind]
    rfl
  · rw [← henv]
    unfold enter
    rw [hsame]
    rfl

end RaisedTip

end LegacyPool

end StableNet.Pool
