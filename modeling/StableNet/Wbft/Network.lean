import StableNet.Wbft.Handlers

/-! A network of consensus cores. The adversary orders, drops, repeats and forges messages, but not signatures and
seals of honest nodes. -/
namespace StableNet.Wbft
open Chain

def Message.signatures : Message → List Signature
  | .preprepare m => m.signature ::
      (m.justificationRoundChanges.map (·.signature)++m.justificationPrepares.map (·.signature))
  | .prepare m => [m.signature]
  | .commit m => [m.signature]
  | .roundChange m => m.signature::m.justification.map (·.signature)

def Message.seals : Message → List Seal
  | .preprepare m => m.justificationPrepares.map (·.prepareSeal)
  | .prepare m => [m.prepareSeal]
  | .commit m => [m.commitSeal]
  | .roundChange m => m.justification.map (·.prepareSeal)

/-- The honest nodes with their BLS keys. -/
structure Config where
  nodes : List (Address × PublicKey)

namespace Config

/-- The nodes that run the code. -/
def honest (cfg : Config) : Finset Address := (cfg.nodes.map (·.1)).toFinset

def honestKeys (cfg : Config) : Finset PublicKey := (cfg.nodes.map (·.2)).toFinset

end Config

/-- The cores of the honest nodes, what they have signed and sealed so far, and the blocks they have
handed to `backend.Commit`, with the sequence they were in; the newest first. -/
structure Net where
  cores : Address → Core
  signed : List (Address × SigningPayload)
  sealed : List (PublicKey × SealPreimage)
  committed : List (Address × ℕ × Block)

/-- One event at one node, with the answers of its backend while it is handled. -/
structure Input where
  node : Address
  backend : Backend
  event : Event

namespace Effect

def signed : Effect → Option SigningPayload
  | .sign payload => some payload
  | _ => none

def sealedPreimage : Effect → Option SealPreimage
  | .sealed preimage => some preimage
  | _ => none

def committed : Effect → Option Block
  | .commit proposal _ _ _ => some proposal
  | _ => none

end Effect

namespace Core

/-- The state in which an event is handled: the event has left its channel. -/
def receive (c : Core) (e : Event) : Core :=
  { c with
    posted := c.posted.erase e
    timers := if e = .timeout then { c.timers with roundChange := false } else c.timers
    effects := [] }

end Core

namespace Net

/-- Signatures and seals of honest nodes were made before. -/
def Authentic (cfg : Config) (net : Net) (m : Message) : Prop :=
  (∀ sig ∈ m.signatures, sig.signer ∈ cfg.honest → (sig.signer,sig.payload) ∈ net.signed) ∧
  ∀ s ∈ m.seals, s.publicKey ∈ cfg.honestKeys → (s.publicKey,s.preimage) ∈ net.sealed

instance (cfg : Config) (net : Net) (m : Message) : Decidable (net.Authentic cfg m) :=
  inferInstanceAs (Decidable (_ ∧ _))

/-- The events a node can receive: authentic messages, what was posted to its channels, what its
timers post, and, at any time, requests and notices of a new head. -/
def EventEnabled (cfg : Config) (net : Net) (node : Address) : Event → Prop
  | .message m => net.Authentic cfg m
  | .backlog m => .backlog m ∈ (net.cores node).posted
  | .retryTimeout r => .retryTimeout r ∈ (net.cores node).posted
  | .timeout => (net.cores node).timers.roundChange=true
  | .request _ | .finalCommitted | .fireRetryTimer | .fireFuturePreprepareTimer => True

instance (cfg : Config) (net : Net) (node : Address) :
    ∀ e, Decidable (net.EventEnabled cfg node e)
  | .message m => inferInstanceAs (Decidable (net.Authentic cfg m))
  | .backlog _ | .retryTimeout _ => inferInstanceAs (Decidable (_ ∈ _))
  | .timeout => inferInstanceAs (Decidable (_=_))
  | .request _ | .finalCommitted | .fireRetryTimer | .fireFuturePreprepareTimer =>
    inferInstanceAs (Decidable True)

def Enabled (cfg : Config) (net : Net) (i : Input) : Prop :=
  i.node ∈ cfg.honest ∧ net.EventEnabled cfg i.node i.event

instance (cfg : Config) (net : Net) (i : Input) : Decidable (net.Enabled cfg i) :=
  inferInstanceAs (Decidable (_ ∧ _))

def coreAfter (net : Net) (i : Input) : Core :=
  ((net.cores i.node).receive i.event).handleEvent i.backend i.event

def next (net : Net) (i : Input) : Net :=
  let c := net.coreAfter i
  { cores := Function.update net.cores i.node c
    signed := (c.effects.filterMap Effect.signed).map (i.node,·)++net.signed
    sealed := (c.effects.filterMap Effect.sealedPreimage).map (c.blsPublicKey,·)++net.sealed
    committed := (c.effects.filterMap Effect.committed).map
      ((i.node,(net.cores i.node).current.sequence,·))++net.committed }

lemma forall_cores_next {net : Net} {i : Input} {P : Address → Core → Prop}
    (hself : P i.node (net.coreAfter i)) (hother : ∀ a, a ≠ i.node → P a (net.cores a)) (a : Address) :
    P a ((net.next i).cores a) := by
  by_cases h : a = i.node
  · subst h
    simpa [next] using hself
  · simpa [next,h] using hother a h

/-- Every honest core starts on the head its own backend has. -/
def init (cfg : Config) (backends : Address → Backend) : Net where
  cores a := Core.start a ((cfg.nodes.find? (·.1 = a)).map (·.2) |>.getD 0) (backends a)
  signed := []
  sealed := []
  committed := []

/-- The networks reached by inputs that are enabled and, at the point where they are taken, meet the
condition `ok`. -/
inductive Reachable (cfg : Config) (backends : Address → Backend) (ok : Net → Input → Prop) :
    Net → Prop
  | init : Reachable cfg backends ok (init cfg backends)
  | step {net : Net} {i : Input} : Reachable cfg backends ok net → net.Enabled cfg i → ok net i →
      Reachable cfg backends ok (net.next i)

/-- Run a list of inputs, as long as each is enabled and meets `ok`. -/
def run (cfg : Config) (ok : Net → Input → Prop) [∀ net i, Decidable (ok net i)] : Net → List Input → Option Net
  | net, [] => some net
  | net, i::is => if net.Enabled cfg i ∧ ok net i then run cfg ok (net.next i) is else none

lemma Reachable.run {cfg : Config} {backends : Address → Backend} {ok ok' : Net → Input → Prop}
    [∀ net i, Decidable (ok net i)] {is : List Input} (hok : ∀ i ∈ is, ∀ net, ok net i → ok' net i)
    {net net' : Net} (h : Reachable cfg backends ok' net) (hrun : net.run cfg ok is = some net') :
    Reachable cfg backends ok' net' := by
  induction is generalizing net with
  | nil =>
    simp only [Net.run,Option.some.injEq] at hrun
    exact hrun ▸ h
  | cons i is ih =>
    simp only [Net.run] at hrun
    split at hrun
    · rename_i hen
      exact ih (fun j hj => hok j (List.mem_cons_of_mem _ hj))
        (h.step hen.1 (hok i List.mem_cons_self net hen.2)) hrun
    · simp at hrun

/-- A run from the start that ends with `P` reaches a network with `P`. -/
theorem exists_reachable_of_run (cfg : Config) (backends : Address → Backend)
    (ok ok' : Net → Input → Prop) [∀ net i, Decidable (ok net i)] (is : List Input)
    (hok : ∀ i ∈ is, ∀ net, ok net i → ok' net i) (P : Net → Prop) [DecidablePred P]
    (hrun : (Net.run cfg ok (init cfg backends) is).any (fun net => decide (P net))=true) :
    ∃ net, Reachable cfg backends ok' net ∧ P net := by
  cases hnet : Net.run cfg ok (init cfg backends) is with
  | none => simp [hnet] at hrun
  | some net => exact ⟨net,Reachable.init.run hok hnet,by simpa [hnet] using hrun⟩

end Net

end StableNet.Wbft
