import StableNet.Evm.AccountBits
import StableNet.Miner.Selection

/-! A block producer fills a block with the transactions it selects. -/
namespace StableNet.Miner
open Chain (Address)
open Evm Lib

/-- What stays the same while a block is filled. The pool may have dropped a transaction that it offered. -/
structure Worker where
  net : Network
  block : Block
  gas : LazyTransaction → ℕ
  resolve : LazyTransaction → Option Transaction
  size : Transaction → ℕ
  maxSize : ℕ

/-- The work on a block. The coinbase is the configured one and may differ from that of the header; `marked` says
whether a failed transaction has changed the mark on `ripemd`. -/
structure Environment where
  coinbase : Address
  progress : Progress
  txs : List Transaction
  receipts : List Receipt
  size : ℕ
  marked : Bool

/-- A failed transaction is reverted, but for the mark that it leaves. -/
def Environment.revert (env : Environment) (mark : Bool) : Environment :=
  let w := env.progress.world
  { env with
    progress := { env.progress with world := { w with db := { w.db with ripemdDirty := mark } } }
    marked := env.marked || mark != w.db.ripemdDirty }

namespace Worker
variable (w : Worker)

/-- The block as the transactions see it: `NewEVMBlockContext` prefers the author to the header. -/
def authored (author : Address) : Block := { w.block with header := { w.block.header with coinbase := author } }

/-- The mark on `ripemd` after a transaction, whether it fails or not. -/
def ripemdMark (b : Block) (p : Progress) (tx : Transaction) : Bool :=
  let mark : Except TxError Bool := do
    let msg ← transactionToMessage tx (b.header.baseFee.getD 0) (Header.gasTip b.header) p.world.db
    let (_,gas,db) ← commence msg (b.header.baseFee.getD 0) p.gasPool p.world.db.setTxContext
    let o := (w.net.vm b msg).executeMessage msg (msg.gasLimit-gas) { p.world with db := db.prepare }
    return (paid (newEnv b.header msg) msg o).ripemdDirty
  mark.toOption.getD p.world.db.ripemdDirty

/-- A transaction that fails leaves no more than a mark. -/
def commitTransaction (env : Environment) (tx : Transaction) : Environment × Option TxError :=
  let b := w.authored env.coinbase
  match w.net.applyTransaction b env.progress tx with
  | .error e => (env.revert (w.ripemdMark b env.progress tx),some e)
  | .ok (receipt,p) => ({ env with
      progress := p
      txs := env.txs++[tx]
      receipts := env.receipts++[receipt]
      size := env.size+w.size tx },none)

/-- What is done with the next transaction. The block is full if there is no answer. -/
def consider (env : Environment) (ltx : LazyTransaction) : Option (Environment × Call) :=
  if env.progress.gasPool<w.gas ltx then some (env,.pop)
  else
    match w.resolve ltx with
    | none => some (env,.pop)
    | some tx =>
      if w.maxSize ≤ env.size+w.size tx then none
      else
        match w.commitTransaction env tx with
        | (env,none) => some (env,.shift)
        | (env,some .nonceTooLow) => some (env,.shift)
        | (env,some _) => some (env,.pop)

/-- The loop, which is interrupted after `n` turns. -/
def commitTransactions : ℕ → Environment → TransactionsByPriceAndNonce → Environment
  | 0, env, _ => env
  | n+1, env, t =>
    if env.progress.gasPool<txGas then env
    else
      match t.peek.bind fun x => w.consider env x.1 with
      | none => env
      | some (env,c) => (t.step c).elim env (commitTransactions n env)

/-- An interrupt among the local transactions leaves no turn for the others. -/
def fillTransactions (n m : ℕ) (env : Environment) (locals remotes : TransactionsByPriceAndNonce) : Environment :=
  w.commitTransactions m (w.commitTransactions n env locals) remotes

def makeEnv (world : World) (coinbase : Address) (size : ℕ) : Environment :=
  ⟨coinbase,⟨world,w.block.header.gasLimit,0⟩,[],[],size,false⟩

/-- The block, with the gas that was used. -/
def assemble (env : Environment) : Block :=
  { w.block with header := { w.block.header with gasUsed := env.progress.usedGas }, txs := env.txs }

/-- Unless a failed transaction left its mark, the work done is what the transactions do. -/
structure Filled (p : Progress) (author : Address) (env : Environment) : Prop where
  coinbase : env.coinbase=author
  done : env.marked=false → w.net.applyTransactions (w.authored author) env.txs p = .ok (env.receipts,env.progress)

variable {w} {p : Progress} {author : Address} {env env' : Environment}

lemma Filled.commitTransaction {tx : Transaction} {e : Option TxError} (h : w.Filled p author env)
    (hcommit : w.commitTransaction env tx = (env',e)) : w.Filled p author env' := by
  obtain ⟨rfl,hdone⟩ := h
  unfold Worker.commitTransaction at hcommit
  dsimp only at hcommit
  split at hcommit <;> cases hcommit
  · refine ⟨rfl,fun hmarked => ?_⟩
    obtain ⟨hbefore,hsame⟩ := Bool.or_eq_false_iff.mp hmarked
    rw [bne_eq_false_iff_eq] at hsame
    rw [Environment.revert,hsame]
    exact hdone hbefore
  · exact ⟨rfl,fun hmarked => Network.applyTransactions_concat (hdone hmarked) ‹_›⟩

lemma Filled.consider {ltx : LazyTransaction} {c : Call} (h : w.Filled p author env)
    (hc : w.consider env ltx = some (env',c)) : w.Filled p author env' := by
  unfold Worker.consider at hc
  split at hc
  · cases hc
    exact h
  split at hc
  · cases hc
    exact h
  split at hc
  · cases hc
  split at hc <;> cases hc <;> exact h.commitTransaction ‹_›

lemma Filled.commitTransactions (n : ℕ) (t : TransactionsByPriceAndNonce) (h : w.Filled p author env) :
    w.Filled p author (w.commitTransactions n env t) := by
  induction n generalizing env t with
  | zero => exact h
  | succ n ih =>
    rw [Worker.commitTransactions]
    split
    · exact h
    split
    · exact h
    · rename_i env' c hc
      obtain ⟨x,_,hc⟩ := Option.bind_eq_some_iff.mp hc
      cases t.step c with
      | none => exact h.consider hc
      | some t' => exact ih t' (h.consider hc)

lemma applyTransactions_assemble (txs : List Transaction) (p : Progress) :
    w.net.applyTransactions (w.assemble env) txs p = w.net.applyTransactions w.block txs p := by
  induction txs generalizing p with
  | nil => rfl
  | cons tx txs ih =>
    simp only [Network.applyTransactions,ih]
    rfl

/-- However the filling of a block was interrupted, whoever processes the block finds the receipts that its producer
has, and accepts it if the end of the block does not fail. The producer has to work for the coinbase of the header, and
no transaction that failed may have left its mark on `ripemd`. -/
theorem process_assemble {world : World} {coinbase : Address} {size n m : ℕ}
    {locals remotes : TransactionsByPriceAndNonce} {env : Environment}
    (henv : w.fillTransactions n m (w.makeEnv world coinbase size) locals remotes = env)
    (hcoinbase : coinbase=w.block.header.coinbase) (hmarked : env.marked=false) :
    w.net.process (w.assemble env) world =
      (finalize (w.assemble env) env.progress.world).map (env.receipts,·) := by
  subst hcoinbase
  have hstart : w.Filled ⟨world,w.block.header.gasLimit,0⟩ w.block.header.coinbase
      (w.makeEnv world w.block.header.coinbase size) := ⟨rfl,fun _ => rfl⟩
  have hfilled : w.Filled ⟨world,w.block.header.gasLimit,0⟩ w.block.header.coinbase env := by
    rw [← henv]
    exact (hstart.commitTransactions n locals).commitTransactions m remotes
  have htxs : w.net.applyTransactions (w.assemble env) (w.assemble env).txs
      ⟨world,(w.assemble env).header.gasLimit,0⟩ = .ok (env.receipts,env.progress) :=
    (applyTransactions_assemble _ _).trans (hfilled.done hmarked)
  rw [Network.process,htxs]
  have hused : decide ((w.assemble env).header.gasUsed=env.progress.usedGas)=true := decide_eq_true rfl
  cases hend : finalize (w.assemble env) env.progress.world with
  | error e => simp [Except.mapError,hend,bind,Except.bind,Except.map]
  | ok w' => simp [Except.mapError,hend,bind,Except.bind,Except.map,hused,require,pure,Except.pure]

namespace ThreeAccounts
open SingleSender (sender account transaction)

/-- The sender offers two transactions; one account cannot pay, and the transaction of another one is gone. -/
def worker : Worker where
  net := SingleSender.net
  block := { SingleSender.block 0 (transaction none 0 []) with txs := [] }
  gas _ := 100000
  resolve
    | ⟨1,_,_,_⟩ => some (transaction (some 0xb0b) 7 [])
    | ⟨2,_,_,_⟩ => some { transaction none 0 [0x00] with nonce := 1 }
    | ⟨3,_,_,_⟩ => some { transaction (some 0xb0b) 7 [] with sender := some 0xbad }
    | _ => none
  size _ := 100
  maxSize := 8000000

def world : World := SingleSender.world [(sender,account)]

def selection (pending : List Pending) : TransactionsByPriceAndNonce :=
  newTransactionsByPriceAndNonce pending (some 5) (some 1) true (some world.db)

def filled : Environment :=
  worker.fillTransactions 10 10 (worker.makeEnv world 0xc0 500) (selection [])
    (selection [⟨sender,[⟨1,0,10,1⟩,⟨2,1,10,1⟩],by simp⟩,⟨0xbad,[⟨3,2,10,1⟩],by simp⟩,⟨0xdead,[⟨4,3,10,1⟩],by simp⟩])

/-- The block with the two transactions of the sender is accepted. -/
theorem filled_accepted : filled.receipts.map (·.gasUsed) = [21000,53004] ∧
    ∃ w, worker.net.process (worker.assemble filled) world = .ok (filled.receipts,w) := by
  obtain ⟨w,hw,-⟩ := exists_of_holds (x := finalize (worker.assemble filled) filled.progress.world) (P := fun _ => true)
    (by decide +kernel)
  refine ⟨by decide +kernel,w,?_⟩
  rw [process_assemble (show _ = filled from rfl) rfl (by decide +kernel),hw]
  rfl

end ThreeAccounts

end Worker

end StableNet.Miner
