import StableNet.Pool.LegacyPool

/-! The counters of the pool. They are right because a place, a sender and a nonce, is taken only once. Transactions
between two lists are floating. -/
namespace StableNet.Pool
open Chain (Address Header)
open Lib Lookup
open TxList

/-- The place of a transaction. -/
def Tx.key (tx : Tx) : Address × ℕ := (tx.src,tx.nonce)

abbrev TxList.items (l : TxList) : List Tx := l.txs.items

/-- The list of an account, pending or queued. -/
structure TxList.Kept (pending : Bool) (addr : Address) (l : TxList) : Prop where
  strict : l.strict=pending
  tracks : l.tracksExpenditure=pending
  count : l.feeDelegated = l.items.countP (·.feeDelegated)
  total : pending=true → l.totalcost = (l.items.map Tx.senderCost).sum
  src : ∀ tx ∈ l.items, tx.src=addr

/-- The places of the transactions differ, their costs can be counted, and the lookup has no others, and none without
a remembered tip cap. -/
structure Sound (remembered : Tx → Prop) (all : Lookup) (txs : List Tx) : Prop where
  keys : (txs.map Tx.key).Nodup
  fits : ∀ tx ∈ txs, tx.cost<2^256
  known : ∀ tx, all.get tx=true → tx ∈ txs
  capped : ∀ tx, all.get tx=true → remembered tx

lemma Sound.perm {P : Tx → Prop} {all : Lookup} {txs txs' : List Tx} (h : Sound P all txs)
    (hperm : txs'.Perm txs) : Sound P all txs' where
  keys := (hperm.map _).nodup_iff.mpr h.keys
  fits tx htx := h.fits tx (hperm.subset htx)
  known tx htx := hperm.symm.subset (h.known tx htx)
  capped := h.capped

namespace Lookup
variable {t : Lookup} {tx a : Tx}

lemma get_remove : (t.remove a).get tx=true ↔ t.get tx=true ∧ tx≠a := by
  simp only [get,remove,List.mem_filter,decide_eq_true_eq,Bool.or_eq_true]
  tauto

lemma get_foldl_remove {txs : List Tx} : (txs.foldl remove t).get tx=true ↔ t.get tx=true ∧ tx ∉ txs := by
  induction txs generalizing t with
  | nil => simp
  | cons a txs ih =>
    rw [List.foldl_cons,ih,get_remove,List.mem_cons]
    tauto

lemma get_add {isLocal : Bool} : (t.add a isLocal).get tx=true ↔ t.get tx=true ∨ tx=a := by
  cases isLocal
  · simp [get,add]
    tauto
  · simp [get,add]
    tauto

lemma get_remoteToLocals {locals : List Address} : (t.remoteToLocals locals).1.get tx = t.get tx := by
  by_cases h : tx.src ∈ locals <;> simp [get,remoteToLocals,h]

end Lookup

namespace LegacyPool

/-- What no movement between the lists changes. -/
structure Context where
  head : Header
  state : Evm.StateDB
  env : AnzeonTipEnv
  caps : TipCaps
  admissions : Admissions

abbrev Context.remembered (c : Context) : Tx → Prop := Remembers c.caps c.admissions

def context (s : LegacyPool) : Context := ⟨s.currentHead,s.currentState,s.anzeonTipEnv,s.tipCaps,s.admissions⟩

def lists (s : LegacyPool) (pending : Bool) : Lists := if pending then s.pending else s.queue

/-- New lists, with the gas and the lookup that belong to them. -/
def put (s : LegacyPool) (pending : Bool) (m : Lists) (pendingGas : PendingGas) (all : Lookup) : LegacyPool :=
  if pending then { s with pending := m, pendingGas, all } else { s with queue := m, pendingGas, all }

/-- What payers owe for the transactions of some lists. -/
def owed (m : Lists) (payer : Address) : ℕ := ((flat items m).map (·.feeFor payer)).sum

/-- What they owe for the pending transactions outside of one list. -/
def owedElsewhere (s : LegacyPool) (pending : Bool) (addr : Address) : Address → ℕ :=
  owed (if pending then s.pending.erase addr else s.pending)

abbrev held (s : LegacyPool) : List Tx := flat items s.pending++flat items s.queue

/-- What is kept but for one list. -/
def elsewhere (s : LegacyPool) (pending : Bool) (addr : Address) : List Tx :=
  flat items ((s.lists pending).erase addr)++flat items (s.lists !pending)

/-- The books of the pool are right while some transactions are in no list. -/
structure Books (c : Context) (floating : List Tx) (s : LegacyPool) : Prop where
  context : s.context=c
  kept : ∀ pending addr l, (s.lists pending).lookup addr = some l → l.Kept pending addr
  gas : ∀ payer, s.pendingGas payer = entry (owed s.pending payer)
  sound : Sound c.remembered s.all (floating++(flat items s.pending++flat items s.queue))

namespace Books
variable {config : Config} {chain : BlockChain} {c : Context} {X X' : List Tx} {s s' : LegacyPool} {tx : Tx}
  {addr : Address} {l l' : TxList} {g : PendingGas} {pending : Bool}
variable {txs : List Tx} {α : Type} {a : Tx}

theorem move (h : Books c X s) (hpending : s'.pending=s.pending) (hqueue : s'.queue=s.queue)
    (hgas : s'.pendingGas=s.pendingGas) (hall : ∀ tx, s'.all.get tx=true → s.all.get tx=true)
    (hcapped : ∀ tx, s'.all.get tx=true → s'.context.remembered tx) : Books s'.context X s' where
  context := rfl
  kept := by simpa only [lists,hpending,hqueue] using h.kept
  gas := by simpa only [hpending,hgas] using h.gas
  sound := by
    rw [hpending,hqueue]
    exact ⟨h.sound.keys,h.sound.fits,fun tx htx => h.sound.known tx (hall tx htx),hcapped⟩

lemma capped (h : Books c X s) (hknown : s.all.get tx=true) : s.context.remembered tx := by
  have hcap := h.sound.capped tx hknown
  rwa [← h.context] at hcap

lemma congr (h : Books c X s) (hpending : s'.pending=s.pending) (hqueue : s'.queue=s.queue)
    (hgas : s'.pendingGas=s.pendingGas) (hall : ∀ tx, s'.all.get tx=true → s.all.get tx=true)
    (hcontext : s'.context=s.context) : Books c X s' := by
  rw [← h.context,← hcontext]
  exact h.move hpending hqueue hgas hall fun tx htx => hcontext ▸ h.capped (hall tx htx)

lemma forget (h : Books c (txs++X) s) : Books c X (s.forget txs) := by
  refine ⟨h.context,h.kept,h.gas,?_⟩
  have hsound := h.sound
  rw [List.append_assoc] at hsound
  have hkeys := hsound.keys
  rw [List.map_append] at hkeys
  refine ⟨hkeys.of_append_right,fun tx htx => hsound.fits tx (List.mem_append_right _ htx),fun tx htx => ?_,
    fun tx htx => hsound.capped tx (get_foldl_remove.mp htx).1⟩
  obtain ⟨hget,hnot⟩ := get_foldl_remove.mp htx
  exact (List.mem_append.mp (hsound.known tx hget)).resolve_left hnot

lemma drop (h : Books c (tx::X) s) (hall : s.all.get tx≠true) : Books c X s := by
  refine ⟨h.context,h.kept,h.gas,(List.nodup_cons.mp h.sound.keys).2,
    fun a ha => h.sound.fits a (List.mem_cons_of_mem _ ha),fun a ha => ?_,h.sound.capped⟩
  obtain rfl | hmem := List.mem_cons.mp (h.sound.known a ha)
  · exact absurd ha hall
  · exact hmem

lemma sound_at (h : Books c X s) (pending : Bool) (addr : Address) :
    Sound c.remembered s.all (X++(flatAt items (s.lists pending) addr++s.elsewhere pending addr)) := by
  refine h.sound.perm (List.Perm.append_left _ ?_)
  rw [elsewhere,← List.append_assoc]
  refine (flatAt_append_flat_erase.append_right _).trans ?_
  cases pending
  · exact List.perm_append_comm
  · exact .refl _

/-- The list that an operation on an account starts from. -/
def listAt (s : LegacyPool) (pending : Bool) (addr : Address) : TxList :=
  ((s.lists pending).lookup addr).getD { newList pending with tracksExpenditure := pending }

lemma items_listAt (s : LegacyPool) (pending : Bool) (addr : Address) :
    (listAt s pending addr).items = flatAt items (s.lists pending) addr := by
  rw [flatAt,listAt]
  cases (s.lists pending).lookup addr <;> rfl

lemma kept_listAt (h : Books c X s) (pending : Bool) (addr : Address) : (listAt s pending addr).Kept pending addr := by
  rw [listAt]
  cases hl : (s.lists pending).lookup addr with
  | none => exact ⟨rfl,rfl,rfl,fun _ => rfl,fun _ hmem => absurd hmem List.not_mem_nil⟩
  | some l => exact h.kept pending addr l hl

lemma balanced (h : Books c X s) (pending : Bool) (addr : Address) :
    (listAt s pending addr).Balanced s.pendingGas (listAt s pending addr).items (s.owedElsewhere pending addr) := by
  have hkept := h.kept_listAt pending addr
  refine ⟨hkept.count,fun ht => hkept.total (hkept.tracks.symm.trans ht),fun payer => ?_⟩
  rw [h.gas,booked,hkept.tracks,items_listAt]
  cases pending with
  | false => rfl
  | true =>
    have hperm : (flatAt items s.pending addr++flat items (s.pending.erase addr)).Perm _ := flatAt_append_flat_erase
    rw [owed,← (hperm.map _).sum_eq,List.map_append,List.sum_append,Nat.add_comm]
    rfl

theorem write (h : Books c X s) {all : Lookup} (hstrict : l.strict=pending) (htracks : l.tracksExpenditure=pending)
    (hsrc : ∀ tx ∈ l.items, tx.src=addr) (hbalanced : l.Balanced g l.items (s.owedElsewhere pending addr))
    (hsound : Sound c.remembered all (X'++(l.items++s.elsewhere pending addr))) :
    Books c X' (s.put pending ((s.lists pending).insert addr l) g all) := by
  have hkept : l.Kept pending addr :=
    ⟨hstrict,htracks,hbalanced.count,fun ht => hbalanced.total (htracks.trans ht),hsrc⟩
  have hlists (a : Address) (l' : TxList) (hl' : ((s.lists pending).insert addr l).lookup a = some l') :
      l'.Kept pending a := by
    by_cases ha : a=addr
    · subst ha
      obtain rfl : l=l' := by simpa using hl'
      exact hkept
    · exact h.kept pending a l' (by simpa [AList.lookup_insert_ne ha] using hl')
  have hflat : (l.items++s.elsewhere pending addr) = flat items ((s.lists pending).insert addr l) ++
      flat items (s.lists !pending) := by
    rw [flat_insert,List.append_assoc]
    rfl
  have hgas := hbalanced.gas
  simp only [booked,htracks] at hgas
  rw [hflat] at hsound
  cases pending with
  | false =>
    exact ⟨h.context,fun p => p.casesOn hlists (h.kept true),hgas,hsound.perm (List.perm_append_comm.append_left _)⟩
  | true =>
    refine ⟨h.context,fun p => p.casesOn (h.kept false) hlists,
      fun payer => (hgas payer).trans (congrArg entry ?_),hsound⟩
    change _ = owed (s.pending.insert addr l) payer
    rw [owed,flat_insert,List.map_append,List.sum_append,Nat.add_comm]
    rfl

lemma flat_lists (s : LegacyPool) (pending : Bool) (addr : Address) :
    (flatAt items (s.lists pending) addr++flat items ((s.lists pending).erase addr)).Perm
      (flat items (s.lists pending)) :=
  flatAt_append_flat_erase

lemma take {f : TxList → PendingGas → Except Panic (α × TxList × PendingGas)} (h : Books c X s)
    (pending : Bool) (taken : α → List Tx) (hf : ∀ l, (s.lists pending).lookup addr = some l → ∀ rest,
      l.Balanced s.pendingGas l.items rest → Post Panic.Other (fun r => l.Loses (taken r.1) r.2.1 r.2.2 rest)
        (f l s.pendingGas)) : Post Panic.Other (fun r => Books c (taken r.1++X) (s.put pending r.2.1 r.2.2 s.all) ∧
        (taken r.1++flat items r.2.1).Perm (flat items (s.lists pending))) (s.takeFrom (s.lists pending) addr f) := by
  have hbalanced := h.balanced pending addr
  have hkept := h.kept_listAt pending addr
  have hsound := h.sound_at pending addr
  rw [← items_listAt] at hsound
  unfold takeFrom
  cases hlookup : (s.lists pending).lookup addr with
  | none => exact .error (.inr (.inl rfl))
  | some l =>
    rw [listAt,hlookup] at hbalanced hkept hsound
    refine (hf l hlookup _ hbalanced).bind fun r hr => .ok ⟨?_,?_⟩
    · refine h.write (hr.strict.trans hkept.strict) (hr.tracks.trans hkept.tracks)
        (fun tx htx => hkept.src tx (hr.splits.mem_items.mpr (.inr htx))) hr.balanced (hsound.perm ?_)
      have hcomm : (taken r.1++X).Perm (X++taken r.1) := List.perm_append_comm
      refine (hcomm.append_right _).trans ?_
      rw [List.append_assoc X,← List.append_assoc (taken r.1)]
      exact (List.Perm.append_right _ hr.splits).append_left X
    · have hperm := flat_lists s pending addr
      rw [flatAt,hlookup,Option.elim_some] at hperm
      rw [flat_insert,← List.append_assoc]
      exact (List.Perm.append_right _ hr.splits).trans hperm

lemma takePending {f : TxList → PendingGas → Except Panic (α × TxList × PendingGas)} (h : Books c X s)
    (taken : α → List Tx) (hf : ∀ l, s.pending.lookup addr = some l → ∀ rest, l.Balanced s.pendingGas l.items rest →
      Post Panic.Other (fun r => l.Loses (taken r.1) r.2.1 r.2.2 rest) (f l s.pendingGas)) :
    Post Panic.Other (fun r => Books c (taken r.1++X) r.2 ∧ r.2.all=s.all) (s.takePending addr f) :=
  (h.take true taken hf).bind fun _ hr => .ok ⟨hr.1,rfl⟩

lemma takeQueued {f : TxList → PendingGas → Except Panic (α × TxList × PendingGas)} (h : Books c X s)
    (taken : α → List Tx) (hf : ∀ l, s.queue.lookup addr = some l → ∀ rest, l.Balanced s.pendingGas l.items rest →
      Post Panic.Other (fun r => l.Loses (taken r.1) r.2.1 r.2.2 rest) (f l s.pendingGas)) :
    Post Panic.Other (fun r => Books c (taken r.1++X) r.2 ∧ r.2.all=s.all ∧ (taken r.1++r.2.held).Perm s.held)
      (s.takeQueued addr f) :=
  (h.take false taken hf).bind fun _ hr =>
    .ok ⟨hr.1,rfl,(List.perm_append_comm_assoc _ _ _).trans (hr.2.append_left _)⟩

lemma get_listAt (h : Books c (tx::X) s) (pending : Bool) : (listAt s pending tx.src).txs.get tx.nonce=none := by
  rw [SortedMap.get_eq_none]
  intro a ha hnonce
  have hkeys := (h.sound_at pending tx.src).keys
  rw [← items_listAt,List.cons_append,List.map_cons,List.nodup_cons] at hkeys
  refine hkeys.1 (List.mem_map.mpr ⟨a,List.mem_append_right _ (List.mem_append_left _ ha),?_⟩)
  rw [Tx.key,Tx.key,hnonce,(h.kept_listAt pending tx.src).src a ha]

lemma flat_gains {old : Option Tx} (s : LegacyPool) (pending : Bool) (h : (listAt s pending tx.src).Gains tx old l) :
    (old.toList++flat items ((s.lists pending).insert tx.src l)).Perm (tx::flat items (s.lists pending)) := by
  have hperm := flat_lists s pending tx.src
  rw [← items_listAt] at hperm
  rw [flat_insert,← List.append_assoc]
  exact (h.items.append_right _).trans (hperm.cons tx)

lemma give (h : Books c (tx::X) s) (pending : Bool) (priceBump : ℕ) : Post Panic.Other (fun r => r.1 = (true,none) ∧
    Books c X (s.put pending ((s.lists pending).insert tx.src r.2.1) r.2.2 s.all) ∧
    (flat items ((s.lists pending).insert tx.src r.2.1)).Perm (tx::flat items (s.lists pending)))
      ((listAt s pending tx.src).add s.pendingGas tx priceBump) := by
  have hkept := h.kept_listAt pending tx.src
  have hnone := h.get_listAt pending
  refine ((h.balanced pending tx.src).add priceBump).mono ?_
  rintro _ (⟨rfl,hcontains⟩ | ⟨old,l',g',rfl,hgains,hafter⟩)
  · have hfound := hcontains (h.sound.fits tx List.mem_cons_self)
    rw [contains,hnone] at hfound
    cases hfound
  · obtain rfl : none = old := hnone.symm.trans hgains.replaced
    refine ⟨rfl,h.write (hgains.strict.trans hkept.strict) (hgains.tracks.trans hkept.tracks) ?_ hafter ?_,
      flat_gains s pending hgains⟩
    · intro a ha
      obtain rfl | ha := List.mem_cons.mp (hgains.items.subset ha)
      · rfl
      · exact hkept.src a ha
    · have hsound := h.sound_at pending tx.src
      rw [← items_listAt] at hsound
      refine hsound.perm (((hgains.items.append_right _).append_left X).trans ?_)
      exact List.perm_middle

lemma enqueueTx (h : Books c (tx::X) s) :
    Post Panic.Other (fun r => Books c X r.2) (s.enqueueTx config chain tx false false) := by
  refine (h.give false config.priceBump).bind ?_
  rintro ⟨_,l',g'⟩ ⟨rfl,hbooks,-⟩
  exact .ok hbooks

lemma requeue (h : Books c (txs++X) s) : Post Panic.Other (Books c X) (s.requeue config chain txs) := by
  induction txs generalizing s with
  | nil => exact .ok h
  | cons tx txs ih =>
    rw [LegacyPool.requeue,List.foldlM_cons]
    exact (h.enqueueTx.bind fun r hr => .ok hr).bind fun s' hs' => ih hs'

lemma promoteTx (h : Books c (tx::X) s) :
    Post Panic.Other (fun s' => Books c X s' ∧ s'.held.Perm (tx::s.held)) (s.promoteTx config chain tx) := by
  refine (h.give true config.priceBump).bind ?_
  rintro ⟨_,l',g'⟩ ⟨rfl,hbooks,hflat⟩
  exact .ok ⟨hbooks.congr rfl rfl rfl (fun _ => id) rfl,hflat.append_right _⟩

lemma promoteAll (h : Books c (txs++X) s) : Post Panic.Other (fun s' => Books c X s' ∧ s'.held.Perm (txs++s.held))
    (txs.foldlM (LegacyPool.promoteTx config chain) s) := by
  induction txs generalizing s with
  | nil => exact .ok ⟨h,.refl _⟩
  | cons tx txs ih =>
    rw [List.foldlM_cons]
    refine h.promoteTx.bind fun s' hs' => (ih hs'.1).mono fun s'' hs'' => ⟨hs''.1,?_⟩
    exact hs''.2.trans ((hs'.2.append_left txs).trans List.perm_middle)

lemma removed (h : Books c X s) (count : ℕ) : Books c X (s.removed chain count) :=
  h.congr rfl rfl rfl (fun _ => id) rfl

lemma setIfLower (h : Books c X s) (addr : Address) (nonce : ℕ) : Books c X (s.setIfLower addr nonce) := by
  unfold LegacyPool.setIfLower
  split
  · exact h
  · exact h.congr rfl rfl rfl (fun _ => id) rfl

lemma closed_lists (m : Lists) (addr : Address) : (flat items (closed m addr)).Perm (flat items m) ∧
    ∀ a l, (closed m addr).lookup a = some l → m.lookup a = some l := by
  unfold closed
  split
  · exact ⟨.refl _,fun _ _ h => h⟩
  · rename_i l hl
    split
    · rename_i hempty
      constructor
      · have hperm : (flatAt items m addr++flat items (m.erase addr)).Perm _ := flatAt_append_flat_erase
        have hnil : l.items = [] := List.isEmpty_iff.mp hempty
        rwa [flatAt,hl,Option.elim_some,hnil] at hperm
      · intro a l' hl'
        by_cases ha : a=addr
        · rw [ha,AList.lookup_erase] at hl'
          cases hl'
        · rwa [AList.lookup_erase_ne ha] at hl'
    · exact ⟨.refl _,fun _ _ h => h⟩

lemma closePending (h : Books c X s) (addr : Address) : Books c X (s.closePending addr) := by
  obtain ⟨hperm,hlookup⟩ := closed_lists s.pending addr
  refine ⟨h.context,fun p => p.casesOn (h.kept false) fun a l hl => h.kept true a l (hlookup a l hl),fun payer => ?_,
    h.sound.perm ((hperm.append_right _).append_left _)⟩
  exact (h.gas payer).trans (congrArg entry (hperm.map _).sum_eq.symm)

lemma closeQueue (h : Books c X s) (addr : Address) : Books c X (s.closeQueue addr) := by
  obtain ⟨hperm,hlookup⟩ := closed_lists s.queue addr
  exact ⟨h.context,fun p => p.casesOn (fun a l hl => h.kept false a l (hlookup a l hl)) (h.kept true),h.gas,
    h.sound.perm ((hperm.append_left _).append_left _)⟩

lemma mem_held (hl : (s.lists pending).lookup addr = some l) (ha : a ∈ l.items) :
    a ∈ flat items s.pending++flat items s.queue := by
  have hat : a ∈ flatAt items (s.lists pending) addr := by rwa [flatAt,hl]
  have hflat := flatAt_append_flat_erase.subset (List.mem_append_left _ hat)
  cases pending
  · exact List.mem_append_right _ hflat
  · exact List.mem_append_left _ hflat

theorem mem_of_contains (h : Books c [] s) (hknown : s.all.get tx=true) (pending : Bool)
    (hl : (s.lists pending).lookup tx.src = some l) (hcontains : l.contains tx.nonce=true) : tx ∈ l.items := by
  obtain ⟨a,ha⟩ := Option.isSome_iff_exists.mp hcontains
  obtain ⟨hmem,hnonce⟩ := SortedMap.get_eq_some.mp ha
  have hkey : a.key=tx.key := by rw [Tx.key,Tx.key,hnonce,(h.kept pending _ l hl).src a hmem]
  rwa [← List.inj_on_of_nodup_map h.sound.keys (mem_held hl hmem) (h.sound.known tx hknown) hkey]

lemma isPending_of_mem (hl : s.pending.lookup tx.src = some l) (hmem : tx ∈ l.items) : s.isPending tx=true := by
  rw [isPending,hl]
  exact Option.isSome_iff_exists.mpr ⟨tx,SortedMap.get_eq_some.mpr ⟨hmem,rfl⟩⟩

section
variable (h : Books c [] s)
include h

lemma mem_queue (hknown : s.all.get tx=true) (hpending : s.isPending tx=false)
    (hl : s.queue.lookup tx.src = some l) : tx ∈ l.items := by
  have hmem : tx ∈ flat items s.pending++flat items s.queue := h.sound.known tx hknown
  obtain hmem | hmem := List.mem_append.mp hmem
  · obtain ⟨addr,l',hl',hmem⟩ := exists_of_mem_flat hmem
    obtain rfl := (h.kept true addr l' hl').src tx hmem
    exact Bool.noConfusion ((isPending_of_mem hl' hmem).symm.trans hpending)
  · obtain ⟨addr,l',hl',hmem⟩ := exists_of_mem_flat hmem
    obtain rfl := (h.kept false addr l' hl').src tx hmem
    rwa [Option.some.inj (hl.symm.trans hl')]

lemma takeOut (hforgot : s.all.get tx≠true)
    (hpending : ∀ l, s.pending.lookup tx.src = some l → l.contains tx.nonce=true → tx ∈ l.items)
    (hqueue : s.isPending tx=false → ∀ l, s.queue.lookup tx.src = some l → tx ∈ l.items) :
    Post Panic.Other (fun r => Books c [] r.2) (s.takeOut config chain tx) := by
  unfold LegacyPool.takeOut
  split
  · rename_i hp
    refine (h.takePending (fun r => tx::r.2) fun l hl rest hbalanced => ?_).bind fun r hr => ?_
    · have hcontains : l.contains tx.nonce=true := by simpa [isPending,hl] using hp
      exact (hbalanced.remove (hpending l hl hcontains)).mono fun _ hr => hr.1
    · have hbooks := (hr.1.drop (by rwa [hr.2])).closePending tx.src
      exact hbooks.requeue.bind fun s' hs' => .ok (hs'.setIfLower _ _)
  · rename_i hp
    split
    · refine (h.takeQueued (fun _ => [tx]) fun l hl rest hbalanced => ?_).bind fun r hr => ?_
      · refine (hbalanced.remove (hqueue (by simpa using hp) l hl)).mono fun r hr => ?_
        have hnil := hr.2 (h.kept false _ l hl).strict
        exact hnil ▸ hr.1
      · exact .ok ((hr.1.drop (by rwa [hr.2.1])).closeQueue tx.src)
    · exact .ok h

lemma removeTx (tx : Tx) (outofbound : Bool) :
    Post Panic.Other (fun r => Books c [] r.2) (s.removeTx config chain tx outofbound) := by
  unfold LegacyPool.removeTx
  cases hknown : s.all.get tx with
  | false => exact .ok h
  | true =>
    have hbooks : Books c [] (s.forget [tx]) := h.congr rfl rfl rfl (fun _ ha => (get_remove.mp ha).1) rfl
    have hforgot : (s.forget [tx]).all.get tx≠true := fun ha => (get_remove.mp ha).2 rfl
    have hpending (l : TxList) (hl : s.pending.lookup tx.src = some l) (hcontains : l.contains tx.nonce=true) :=
      h.mem_of_contains hknown true hl hcontains
    cases outofbound with
    | false => exact hbooks.takeOut hforgot hpending fun hp l => h.mem_queue hknown hp
    | true => exact (hbooks.removed 1).takeOut hforgot hpending fun hp l => h.mem_queue hknown hp

lemma removeAll (txs : List Tx) (outofbound : Bool) :
    Post Panic.Other (Books c []) (s.removeAll config chain txs outofbound) :=
  Post.foldlM (fun _ tx hs => (hs.removeTx tx outofbound).bind fun _ hr => .ok hr) txs h

end

lemma gain {P : Tx → Prop} {all : Lookup} {R : List Tx} {old : Option Tx} (h : Sound P all (l.items++R))
    (hgains : l.Gains tx old l') (hsrc : ∀ a ∈ l.items, a.src=tx.src) (hcap : P tx)
    (hnew : old=none → ∀ a ∈ R, a.key≠tx.key) (isLocal : Bool) :
    Sound P ((old.elim all all.remove).add tx isLocal) (l'.items++R) := by
  have hkept (a : Tx) (ha : (old.elim all all.remove).get a=true) : all.get a=true ∧ a ∉ old.toList := by
    cases old with
    | none => exact ⟨ha,List.not_mem_nil⟩
    | some o => exact ⟨(get_remove.mp ha).1,by simpa using (get_remove.mp ha).2⟩
  refine ⟨?_,fun a ha => ?_,fun a ha => ?_,fun a ha => ?_⟩
  · have hreplaced := hgains.replaced
    have hperm := hgains.items.map Tx.key
    cases old with
    | none =>
      have hkeys := (hperm.append_right (R.map Tx.key)).nodup_iff
      rw [← List.map_append,List.map_cons,List.cons_append,← List.map_append] at hkeys
      refine hkeys.mpr (List.nodup_cons.mpr ⟨fun hmem => ?_,h.keys⟩)
      obtain ⟨a,ha,hkey⟩ := List.mem_map.mp hmem
      obtain ha | ha := List.mem_append.mp ha
      · exact SortedMap.get_eq_none.mp hreplaced a ha (congrArg Prod.snd hkey)
      · exact hnew rfl a ha hkey
    | some o =>
      obtain ⟨hmem,hnonce⟩ := SortedMap.get_eq_some.mp hreplaced
      have hkey : o.key=tx.key := by rw [Tx.key,Tx.key,hsrc o hmem,hnonce]
      rw [List.map_append,List.map_cons] at hperm
      have hinv := List.Perm.cons_inv (hkey ▸ hperm)
      have hkeys := h.keys
      rw [List.map_append] at hkeys ⊢
      exact (hinv.append_right _).nodup_iff.mpr hkeys
  · obtain ha | ha := List.mem_append.mp ha
    · obtain rfl | ha := List.mem_cons.mp (hgains.items.subset (List.mem_append_right _ ha))
      · exact hgains.fits
      · exact h.fits a (List.mem_append_left _ ha)
    · exact h.fits a (List.mem_append_right _ ha)
  · obtain ha | rfl := get_add.mp ha
    · obtain ⟨hget,hnot⟩ := hkept a ha
      obtain ha | ha := List.mem_append.mp (h.known a hget)
      · have hmem := hgains.items.symm.subset (List.mem_cons_of_mem _ ha)
        exact List.mem_append_left _ ((List.mem_append.mp hmem).resolve_left hnot)
      · exact List.mem_append_right _ ha
    · exact List.mem_append_left _ hgains.mem
  · obtain ha | rfl := get_add.mp ha
    · exact h.capped a (hkept a ha).1
    · exact hcap

lemma accept (h : Books c [] s) (pending : Bool) (priceBump : ℕ) (hcap : c.remembered tx)
    (hnew : (listAt s pending tx.src).contains tx.nonce=false → ∀ a ∈ s.elsewhere pending tx.src, a.key≠tx.key) :
    Post Panic.Other (fun r => if r.1.1 then ((((listAt s pending tx.src).txs.get tx.nonce).toList ++
          flat items ((s.lists pending).insert tx.src r.2.1)).Perm (tx::flat items (s.lists pending))) ∧
        ∀ isLocal, Books c [] (s.put pending ((s.lists pending).insert tx.src r.2.1)
          r.2.2 ((r.1.2.elim s.all s.all.remove).add tx isLocal))
      else (flat items ((s.lists pending).insert tx.src r.2.1)).Perm (flat items (s.lists pending)) ∧
        Books c [] (s.put pending ((s.lists pending).insert tx.src r.2.1) r.2.2 s.all))
      ((listAt s pending tx.src).add s.pendingGas tx priceBump) := by
  have hkept := h.kept_listAt pending tx.src
  have hsound := h.sound_at pending tx.src
  rw [← items_listAt,List.nil_append] at hsound
  refine ((h.balanced pending tx.src).add priceBump).mono ?_
  rintro _ (⟨rfl,-⟩ | ⟨old,l',g',rfl,hgains,hafter⟩)
  · refine ⟨?_,h.write hkept.strict hkept.tracks hkept.src (h.balanced pending tx.src) hsound⟩
    rw [flat_insert,items_listAt]
    exact flat_lists s pending tx.src
  · refine ⟨?_,fun isLocal => ?_⟩
    · rw [hgains.replaced]
      exact flat_gains s pending hgains
    refine h.write (hgains.strict.trans hkept.strict) (hgains.tracks.trans hkept.tracks) (fun a ha => ?_) hafter
      (gain hsound hgains hkept.src hcap (fun hold => hnew ?_) isLocal)
    · obtain rfl | ha := List.mem_cons.mp (hgains.items.subset (List.mem_append_right _ ha))
      · rfl
      · exact hkept.src a ha
    · rw [contains,hgains.replaced,hold]
      rfl

lemma isPending_of_key (hkey : a.key=tx.key) : s.isPending a = s.isPending tx := by
  obtain ⟨hsrc,hnonce⟩ := Prod.mk.inj hkey
  rw [isPending,isPending,hsrc,hnonce]

theorem key_ne_of_not_isPending (h : Books c [] s) (hp : s.isPending tx=false)
    (ha : a ∈ s.elsewhere false tx.src) : a.key≠tx.key := by
  intro hkey
  obtain ha | ha := List.mem_append.mp ha
  · obtain ⟨addr,l,hl,hmem⟩ := exists_of_mem_flat ha
    by_cases haddr : addr=tx.src
    · rw [haddr,AList.lookup_erase] at hl
      cases hl
    · rw [AList.lookup_erase_ne haddr] at hl
      exact haddr (((h.kept false addr l hl).src a hmem).symm.trans (congrArg Prod.fst hkey))
  · obtain ⟨addr,l,hl,hmem⟩ := exists_of_mem_flat ha
    obtain rfl := (h.kept true addr l hl).src a hmem
    exact Bool.noConfusion ((isPending_of_mem hl hmem).symm.trans ((isPending_of_key hkey).trans hp))

lemma recorded (chain : BlockChain) {old : Option Tx} {isLocal : Bool}
    (h : Books c [] { s with all := (old.elim s.all s.all.remove).add tx isLocal }) :
    Books c [] ((s.supersede chain old).record chain tx isLocal) := by
  cases old with
  | none | some => exact h.congr rfl rfl rfl (fun _ => id) rfl

lemma held_recorded (chain : BlockChain) {old : Option Tx} {isLocal : Bool} :
    ((s.supersede chain old).record chain tx isLocal).held = s.held := by
  cases old <;> rfl

lemma place (h : Books c [] s) (hcap : c.remembered tx) (isLocal asLocal : Bool) :
    Post Panic.Other (fun r => Books c [] r.2 ∧ (r.2.held.Perm s.held ∨
        (((listAt s (s.isPending tx) tx.src).txs.get tx.nonce).toList++r.2.held).Perm (tx::s.held)))
      (s.place config chain tx isLocal asLocal) := by
  unfold LegacyPool.place
  cases hp : s.isPending tx with
  | true =>
    obtain ⟨l,hl,hcontains⟩ := (Option.any_eq_true _ _).mp hp
    have hlist : listAt s true tx.src=l := by simp [listAt,lists,hl]
    have haccept := h.accept true config.priceBump hcap fun hnot => by simp [hlist,hcontains] at hnot
    rw [hlist] at haccept
    simp only [LegacyPool.takePending,takeFrom,hl,bind_assoc,pure_bind,if_true]
    refine haccept.bind ?_
    rintro ⟨⟨inserted,old⟩,l',g'⟩ hr
    cases inserted with
    | false => exact .ok ⟨hr.2,.inl (hr.1.append_right _)⟩
    | true =>
      obtain ⟨hflat,hr⟩ := hr
      refine .ok ⟨recorded chain (hr isLocal),.inr ?_⟩
      rw [hlist,held_recorded,← List.append_assoc]
      exact hflat.append_right _
  | false =>
    have haccept := h.accept false config.priceBump hcap fun _ _ ha => h.key_ne_of_not_isPending hp ha
    simp only [LegacyPool.enqueueTx,bind_assoc,Bool.false_eq_true,if_false,if_true]
    refine haccept.bind ?_
    rintro ⟨⟨inserted,old⟩,l',g'⟩ hr
    cases inserted with
    | false => exact .ok ⟨hr.2,.inl (hr.1.append_left _)⟩
    | true =>
      obtain ⟨hflat,hr⟩ := hr
      have hbooks := recorded chain (s := s.put false (s.queue.insert tx.src l') g' s.all) (hr isLocal)
      have hheld : (((listAt s false tx.src).txs.get tx.nonce).toList ++
          (((s.put false (s.queue.insert tx.src l') g' s.all).supersede chain old).record chain tx isLocal).held).Perm
          (tx::s.held) := by
        rw [held_recorded]
        exact (List.perm_append_comm_assoc _ (flat items s.pending) _).trans
          ((hflat.append_left (flat items s.pending)).trans List.perm_middle)
      refine .ok ?_
      dsimp only
      split
      · exact ⟨hbooks.congr rfl rfl rfl (fun _ ha => get_remoteToLocals.symm.trans ha) rfl,.inr hheld⟩
      · exact ⟨hbooks,.inr hheld⟩

lemma makeRoom (h : Books c [] s) (tx : Tx) (isLocal : Bool) :
    Post Panic.Other (fun r => Books c [] r.2 ∧ (s.all.slots+tx.numSlots ≤ config.globalSlots+config.globalQueue →
      r = (none,s))) (s.makeRoom config chain tx isLocal) := by
  unfold LegacyPool.makeRoom
  have hpriced (priced : PricedList) : Books c [] { s with priced } := h.congr rfl rfl rfl (fun _ => id) rfl
  dsimp only
  generalize (if isLocal=true then (false,s.priced) else _) = looked
  split
  · exact .ok ⟨h,fun _ => rfl⟩
  rename_i hfull
  split
  · exact .ok ⟨hpriced _,fun hroom => absurd hroom hfull⟩
  split
  · exact .ok ⟨hpriced _,fun hroom => absurd hroom hfull⟩
  split
  · exact .ok ⟨hpriced _,fun hroom => absurd hroom hfull⟩
  split
  · exact .ok ⟨hpriced _,fun hroom => absurd hroom hfull⟩
  refine (Post.foldlM (fun s' tx hs' => ?_) _ (hpriced _)).bind fun s' hs' => .ok ⟨hs',fun hroom => absurd hroom hfull⟩
  exact (hs'.removeTx tx false).bind fun r hr => .ok (hr.congr rfl rfl rfl (fun _ => id) rfl)

theorem validated_caps {caps caps' : TipCaps} (h : s.options.validateTransactionWithState chain tx caps = .ok caps') :
    s.options.checkExpenditure tx = .ok () ∧ (∀ a≠tx, caps' a = caps a) ∧
      caps' tx = some ((s.anzeonTipEnv.admission chain tx (caps tx)).cap tx) := by
  simp only [ValidationOptionsWithState.validateTransactionWithState,bind_eq_ok] at h
  obtain ⟨_,_,_,_,_,_,_,_,_,_,_,hpayers,h⟩ := h
  cases h
  refine ⟨hpayers,?_⟩
  unfold ValidationOptionsWithState.cacheTipCap
  cases hcap : caps tx with
  | none =>
    refine ⟨fun a ha => Function.update_of_ne ha _ _,(Function.update_self ..).trans (congrArg some ?_)⟩
    exact AnzeonTipEnv.getAnzeonTipCap_eq ..
  | some cap => exact ⟨fun _ _ => rfl,by simp [options,hcap,Admission.cap,AnzeonTipEnv.admission]⟩

/-- In a pool with room, a new transaction was checked and takes a place, or nothing changes. -/
theorem add (h : Books c [] s) (a : Arrival) (asLocal : Bool) :
    Post Panic.Other (fun r => (∃ caps admissions, Books { c with caps, admissions } [] r.2) ∧
        (s.all.slots+a.tx.numSlots ≤ config.globalSlots+config.globalQueue → r.2.held.Perm s.held ∨
          s.options.checkExpenditure a.tx = .ok () ∧
            (((listAt s (s.isPending a.tx) a.tx.src).txs.get a.tx.nonce).toList++r.2.held).Perm (a.tx::s.held)))
      (s.add config chain a asLocal) := by
  obtain rfl := h.context
  have hmove (caps : TipCaps) (hcaps : ∀ tx≠a.tx, caps tx = s.tipCaps tx) (x : Option Admission)
      (hnew : s.all.get a.tx=false) :
      Books { s.context with caps, admissions := Function.update s.admissions a.tx x } []
        { s with tipCaps := caps, admissions := Function.update s.admissions a.tx x } := by
    let t : LegacyPool := { s with tipCaps := caps, admissions := Function.update s.admissions a.tx x }
    refine show Books t.context [] t from h.move rfl rfl rfl (fun _ => id) fun tx htx => ?_
    have hne : tx≠a.tx := fun heq => Bool.noConfusion (htx.symm.trans (heq ▸ hnew))
    obtain ⟨y,hy,hcap⟩ := h.capped htx
    exact ⟨y,(Function.update_of_ne hne _ _).trans hy,(hcaps tx hne).trans hcap⟩
  unfold LegacyPool.add
  cases hnew : s.all.get a.tx with
  | true => exact .ok ⟨⟨_,_,h⟩,fun _ => .inl (.refl _)⟩
  | false =>
    have hupdate (tx : Tx) (htx : tx≠a.tx) : Function.update s.tipCaps a.tx a.cap tx = s.tipCaps tx :=
      Function.update_of_ne htx _ _
    simp only [Bool.false_eq_true,if_false]
    split
    · exact .ok ⟨⟨_,_,hmove _ hupdate _ hnew⟩,fun _ => .inl (.refl _)⟩
    · rename_i caps hvalid
      obtain ⟨hpayers,hkept,hcap⟩ := validated_caps hvalid
      rw [Function.update_self] at hcap
      have hbooks := hmove _ (fun tx htx => (hkept tx htx).trans (hupdate tx htx))
        (some (s.anzeonTipEnv.admission chain a.tx a.cap)) hnew
      split
      · exact .ok ⟨⟨_,_,hbooks⟩,fun _ => .inl (.refl _)⟩
      split
      · exact .ok ⟨⟨_,_,hbooks⟩,fun _ => .inl (.refl _)⟩
      refine (hbooks.makeRoom a.tx _).bind ?_
      rintro ⟨e,s'⟩ ⟨hs',hsame⟩
      cases e with
      | some e => exact .ok ⟨⟨_,_,hs'⟩,fun hroom => by cases hsame hroom⟩
      | none =>
        have hadmitted : Remembers caps (Function.update s.admissions a.tx _) a.tx :=
          ⟨_,Function.update_self ..,hcap⟩
        refine (hs'.place hadmitted _ _).mono fun _ hr => ⟨⟨_,_,hr.1⟩,fun hroom => ?_⟩
        cases hsame hroom
        exact hr.2.imp_right fun hheld => ⟨hpayers,hheld⟩

section
variable (h : Books c [] s)
include h

lemma addTxsLocked (arrivals : List Arrival) (asLocal : Bool) :
    Post Panic.Other (fun s' => ∃ caps admissions, Books { c with caps, admissions } [] s')
      (s.addTxsLocked config chain arrivals asLocal) :=
  Post.foldlM (fun _ a ⟨_,_,hs⟩ => (hs.add a asLocal).bind fun _ hr => .ok hr.1) arrivals ⟨c.caps,c.admissions,h⟩

lemma filterList (pending : Bool) (l : TxList) (hl : (s.lists pending).lookup addr = some l)
    (rest : Address → ℕ) (hbalanced : l.Balanced s.pendingGas l.items rest) :
    Post Panic.Other (fun r => l.Loses (r.1.1++r.1.2) r.2.1 r.2.2 rest ∧ (pending=false → r.1.2 = []))
      (s.filterList chain addr l s.pendingGas) :=
  (hbalanced.filter _ _ _ _).mono fun _ hr => ⟨hr.1,fun hp => hr.2 ((h.kept pending _ l hl).strict.trans hp)⟩

theorem promoteAccount (addr : Address) :
    Post Panic.Other (fun s' => Books c [] s' ∧ s'.held.Subperm s.held) (s.promoteAccount config chain addr) := by
  have hleft {taken txs txs' : List Tx} (hperm : (taken++txs').Perm txs) : txs'.Subperm txs :=
    (List.sublist_append_right _ _).subperm.trans hperm.subperm
  unfold LegacyPool.promoteAccount
  split
  · exact .ok ⟨h,.refl _⟩
  refine (h.takeQueued id ?_).bind fun r₁ h₁ => ?_
  · exact fun l _ rest hl => hl.forward _
  have hforwards := h₁.1.forget
  refine (hforwards.takeQueued Prod.fst fun l hl rest hbalanced => ?_).bind fun r₂ h₂ => ?_
  · refine (hforwards.filterList false l hl rest hbalanced).mono fun r hr => ?_
    have hloses := hr.1
    rwa [hr.2 rfl,List.append_nil] at hloses
  have hdrops := h₂.1.forget
  refine (hdrops.takeQueued id ?_).bind fun r₃ h₃ => ?_
  · exact fun l _ rest hl => hl.ready _
  refine h₃.1.promoteAll.bind fun s' hs' => ?_
  have hheld : s'.held.Subperm s.held := (hs'.2.trans h₃.2.2).subperm.trans ((hleft h₂.2.2).trans (hleft h₁.2.2))
  have hend {s' : LegacyPool} {caps : List Tx} (hs : Books c (caps++[]) s') (hsub : s'.held.Subperm s.held)
      (count : ℕ) :
      Books c [] (((s'.forget caps).removed chain count).closeQueue addr) ∧
        (((s'.forget caps).removed chain count).closeQueue addr).held.Subperm s.held :=
    ⟨(hs.forget.removed count).closeQueue addr,((closed_lists s'.queue addr).1.append_left _).subperm.trans hsub⟩
  dsimp only
  split
  · exact .ok (hend hs'.1 hheld _)
  · refine (hs'.1.takeQueued id ?_).bind fun r hr => .ok (hend hr.1 ((hleft hr.2.2).trans hheld) _)
    exact fun l _ rest hl => hl.cap _

lemma demoteAccount (addr : Address) : Post Panic.Other (Books c []) (s.demoteAccount config chain addr) := by
  unfold LegacyPool.demoteAccount
  refine (h.takePending id ?_).bind fun r hr => ?_
  · exact fun l _ rest hl => hl.forward _
  have holds := hr.1.forget
  refine (holds.takePending (fun r => r.1++r.2) fun l hl rest hbalanced => ?_).bind fun r hr => ?_
  · exact (holds.filterList true l hl rest hbalanced).mono fun _ hr => hr.1
  have hdrops := hr.1
  rw [List.append_assoc] at hdrops
  refine hdrops.forget.requeue.bind fun s' hs' => ?_
  refine (hs'.takePending id ?_).bind fun r hr => ?_
  · intro l _ rest hl
    split
    · exact hl.cap 0
    · exact .ok ⟨rfl,rfl,l.txs.splits_nil,hl⟩
  · exact hr.1.requeue.bind fun s' hs' => .ok (hs'.closePending addr)

end

lemma foldl_setIfLower (h : Books c X s) (addr : Address) (txs : List Tx) :
    Books c X (txs.foldl (fun s tx => s.setIfLower addr tx.nonce) s) := by
  induction txs generalizing s with
  | nil => exact h
  | cons tx txs ih => exact ih (h.setIfLower addr tx.nonce)

section
variable (h : Books c [] s)
include h

lemma capOne (addr : Address) : Post Panic.Other (Books c []) (s.capOne chain addr) := by
  unfold LegacyPool.capOne
  refine (h.takePending id ?_).bind fun r hr => .ok ((hr.1.forget.foldl_setIfLower _ _).removed _)
  intro l _ rest hl
  split
  · exact .error (.inr (.inr rfl))
  · exact hl.cap _

lemma reduce (limit : ℕ) (last : Address) (offenders : List Address) (fuel pending : ℕ) :
    Post Panic.Other (fun r => Books c [] r.1)
      (LegacyPool.reduce config chain limit last offenders fuel s pending) := by
  induction fuel generalizing s pending with
  | zero => exact .ok h
  | succ fuel ih =>
    unfold LegacyPool.reduce
    split
    · exact .ok h
    split
    · exact .error (.inr (.inl rfl))
    split
    · exact .ok h
    · exact (Post.foldlM (fun _ addr hs => hs.capOne addr) _ h).bind fun s' hs' => ih hs' _

lemma equalize (spammers offenders : List Address) (pending : ℕ) :
    Post Panic.Other (fun r => Books c [] r.2.1) (LegacyPool.equalize config chain spammers offenders s pending) := by
  induction spammers generalizing offenders s pending with
  | nil => exact .ok h
  | cons spammer spammers ih =>
    unfold LegacyPool.equalize
    split
    · exact .ok h
    split
    · exact ih h _ _
    · exact .error (.inr (.inl rfl))
    · exact (h.reduce _ _ _ _ _).bind fun r hr => ih hr _ _

lemma truncatePending (order : List Address) :
    Post Panic.Other (Books c []) (s.truncatePending config chain order) := by
  unfold LegacyPool.truncatePending
  dsimp only
  split
  · exact .ok h
  refine (h.equalize _ _ _).bind fun r hr => ?_
  split
  · exact .ok hr
  · exact (hr.reduce _ _ _ _ _).bind fun r hr => .ok hr

lemma dropQueued (addrs : List Address) (drop : ℕ) :
    Post Panic.Other (Books c []) (LegacyPool.dropQueued config chain addrs drop s) := by
  induction addrs generalizing s drop with
  | nil => exact .ok h
  | cons addr addrs ih =>
    unfold LegacyPool.dropQueued
    dsimp only
    split
    · exact .ok h
    split
    · exact (h.removeAll _ _).bind fun s' hs' => ih hs' _
    · exact h.removeAll _ _

lemma truncateQueue (order : List Address) : Post Panic.Other (Books c []) (s.truncateQueue config chain order) := by
  unfold LegacyPool.truncateQueue
  dsimp only
  split
  · exact .ok h
  · exact h.dropQueued _ _

end

end Books

def InOrder (s : LegacyPool) : Prop := ∃ c, Books c [] s

namespace InOrder
variable {config : Config} {chain : BlockChain} {s s' : LegacyPool}

section
variable (h : s.InOrder)
include h

lemma congr (hpending : s'.pending=s.pending) (hqueue : s'.queue=s.queue)
    (hgas : s'.pendingGas=s.pendingGas) (hall : s'.all=s.all) (hcaps : s'.tipCaps=s.tipCaps)
    (hadmissions : s'.admissions=s.admissions) : s'.InOrder := by
  obtain ⟨c,h⟩ := h
  refine ⟨_,h.move hpending hqueue hgas (fun _ => by rw [hall]; exact id) fun tx htx => ?_⟩
  rw [hall] at htx
  rw [Context.remembered,context,hcaps,hadmissions]
  exact h.capped htx

lemma addTxsLocked (arrivals : List Arrival) (asLocal : Bool) :
    Post Panic.Other InOrder (s.addTxsLocked config chain arrivals asLocal) := by
  obtain ⟨c,h⟩ := h
  exact (h.addTxsLocked arrivals asLocal).mono fun s' ⟨_,_,hs'⟩ => ⟨_,hs'⟩

lemma addTxs (arrivals : List Arrival) (asLocal : Bool) :
    Post Panic.Other InOrder (s.addTxs config chain arrivals asLocal) := h.addTxsLocked _ _

lemma reset (newHead : Header) (reinject : Option (List Arrival)) :
    Post Panic.Other InOrder (s.reset config chain newHead reinject) := by
  unfold LegacyPool.reset
  split
  · refine addTxsLocked ?_ _ _
    exact h.congr rfl rfl rfl rfl rfl rfl
  · exact .ok h

lemma of_books {x : Except Panic LegacyPool}
    (hx : ∀ c, Books c [] s → Post Panic.Other (Books c []) x) : Post Panic.Other InOrder x := by
  obtain ⟨c,h⟩ := h
  exact (hx c h).mono fun _ hs => ⟨c,hs⟩

lemma reprice (newHead : Header) : (s.reprice chain newHead).InOrder := by
  unfold LegacyPool.reprice
  split
  · exact h.congr rfl rfl rfl rfl rfl rfl
  · exact h.congr rfl rfl rfl rfl rfl rfl

lemma setAll : Post Panic.Other InOrder s.setAll := by
  refine Post.bind (P := fun _ => True) (Post.foldlM (fun nonces e _ => ?_) _ trivial)
    fun _ _ => .ok (h.congr rfl rfl rfl rfl rfl rfl)
  unfold SortedMap.lastElement
  split
  · exact .error (.inr (.inr rfl))
  · exact .ok trivial

lemma runReorg (request : Option (Header × Option (List Arrival))) (dirty : List Address)
    (orders : Orders) : Post Panic.Other InOrder (s.runReorg config chain request dirty orders) := by
  have hpromote (accounts : List Address) {s : LegacyPool} (hs : s.InOrder) :
      Post Panic.Other InOrder (s.promoteExecutables config chain accounts) :=
    hs.of_books fun c hc => Post.foldlM (fun _ addr hs => (hs.promoteAccount addr).mono fun _ hr => hr.1) _ hc
  have hend {s : LegacyPool} (hs : s.InOrder) : Post Panic.Other InOrder (do
      let s ← s.truncatePending config chain orders.spammers
      let s ← s.truncateQueue config chain orders.heartbeats
      return { s with changesSinceReorg := 0 }) := by
    refine (hs.of_books fun c hc => hc.truncatePending _).bind fun s hs => ?_
    refine (hs.of_books fun c hc => hc.truncateQueue _).bind fun s hs => ?_
    exact .ok (hs.congr rfl rfl rfl rfl rfl rfl)
  unfold LegacyPool.runReorg
  cases request with
  | none => exact (hpromote dirty h).bind fun s hs => hend hs
  | some request =>
    refine (h.reset _ _).bind fun s hs => (hpromote _ hs).bind fun s hs => ?_
    refine Post.bind (P := InOrder) ?_ fun s hs => (hs.reprice _).setAll.bind fun s hs => hend hs
    exact hs.of_books fun c hc => Post.foldlM (fun _ addr hs => hs.demoteAccount addr) _ hc

lemma setGasTip (tip : ℕ) (order : List Tx) : Post Panic.Other InOrder (s.setGasTip config chain tip order) := by
  unfold LegacyPool.setGasTip
  dsimp only
  split
  · exact .ok (h.congr rfl rfl rfl rfl rfl rfl)
  · refine Post.bind (P := InOrder) ?_ fun s hs => .ok (hs.congr rfl rfl rfl rfl rfl rfl)
    have hraised : InOrder { s with gasTip := tip } := h.congr rfl rfl rfl rfl rfl rfl
    exact hraised.of_books fun c hc => hc.removeAll _ _

lemma step (op : Op) : Post Panic.Other InOrder (s.step config chain op) := by
  cases op with
  | add arrivals asLocal => exact h.addTxs arrivals asLocal
  | runReorg request dirty orders => exact h.runReorg request dirty orders
  | setGasTip tip order => exact h.setGasTip tip order
  | evict expired => exact h.of_books fun c hc => Post.foldlM (fun _ addr hs => hs.removeAll _ _) _ hc
  | pending filter => exact .ok (h.congr rfl rfl rfl rfl rfl rfl)

lemma run (ops : List Op) : Post Panic.Other InOrder (s.run config chain ops) :=
  Post.foldlM (fun _ op hs => hs.step op) ops h

end

lemma init (chain : BlockChain) (gasTip : ℕ) (head : Header) (statedb : Evm.StateDB) (locals : List Address)
    (walks : ℕ → List Tx) : (init chain gasTip head statedb locals walks).InOrder := by
  refine ⟨_,rfl,fun pending addr l hl => ?_,fun _ => rfl,List.nodup_nil,fun _ h => absurd h List.not_mem_nil,
    fun tx htx => ?_,fun tx htx => ?_⟩
  · cases pending <;> cases hl
  · simp [LegacyPool.init,Lookup.empty,Lookup.get] at htx
  · simp [LegacyPool.init,Lookup.empty,Lookup.get] at htx

end InOrder

/-- Every counter is what the transactions of the lists add up to. -/
structure Exact (s : LegacyPool) : Prop where
  totalcost : ∀ addr l, s.pending.lookup addr = some l → l.totalcost = (l.items.map Tx.senderCost).sum
  pendingGas : ∀ payer, (s.pendingGas payer).getD 0 = owed s.pending payer
  feeDelegated : ∀ pending addr l, (s.lists pending).lookup addr = some l →
    l.feeDelegated = l.items.countP (·.feeDelegated)

lemma InOrder.exact {s : LegacyPool} (h : s.InOrder) : s.Exact := by
  obtain ⟨c,h⟩ := h
  exact ⟨fun addr l hl => (h.kept true addr l hl).total rfl,fun payer => by rw [h.gas,getD_entry],
    fun pending addr l hl => (h.kept pending addr l hl).count⟩

/-- Whatever is done with a pool, its counters are exact, and no panic is about them. -/
theorem run_exact (config : Config) (chain : BlockChain) (gasTip : ℕ) (head : Header) (statedb : Evm.StateDB)
    (locals : List Address) (walks : ℕ → List Tx) (ops : List Op) :
    Post Panic.Other Exact (run config chain (init chain gasTip head statedb locals walks) ops) :=
  ((InOrder.init chain gasTip head statedb locals walks).run ops).mono fun _ hs => hs.exact

/-- Whatever is done with a pool, a sender has at most one transaction for a nonce, which is in a list of the sender,
and the lookup knows no others and none without its tip cap. -/
theorem run_places (config : Config) (chain : BlockChain) (gasTip : ℕ) (head : Header) (statedb : Evm.StateDB)
    (locals : List Address) (walks : ℕ → List Tx) (ops : List Op) :
    Post Panic.Other (fun s => (s.held.map Tx.key).Nodup ∧
        (∀ pending addr l, (s.lists pending).lookup addr = some l → ∀ tx ∈ l.items, tx.src=addr) ∧
        ∀ tx, s.all.get tx=true → tx ∈ s.held ∧ (s.tipCaps tx).isSome)
      (run config chain (init chain gasTip head statedb locals walks) ops) := by
  refine ((InOrder.init chain gasTip head statedb locals walks).run ops).mono fun s ⟨c,h⟩ => ?_
  obtain rfl := h.context
  exact ⟨h.sound.keys,fun pending addr l hl => (h.kept pending addr l hl).src,
    fun tx htx => ⟨h.sound.known tx htx,(h.sound.capped tx htx).isSome⟩⟩

end LegacyPool

end StableNet.Pool
