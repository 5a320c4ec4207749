import StableNet.Evm.Settlement

/-! Snapshots by revision id: a run of state operations, with snapshots and reverts nested in it, is undone by the
revert to a revision taken before it. -/
namespace StableNet.Evm
open Chain (Address Bytes)
open Lib List
variable {db : StateDB} {s : RevisionDB} {older newer : List Revision}

structure Revision where
  id : ℕ
  journalIndex : ℕ

/-- The state with its valid revisions, oldest first. -/
structure RevisionDB where
  db : StateDB
  validRevisions : List Revision
  nextRevisionId : ℕ
  ordered : validRevisions.Pairwise fun r r' => r.id<r'.id
  bounded : ∀ r ∈ validRevisions, r.id<nextRevisionId

/-- The operations on the state, all but snapshots. -/
inductive Mutation where
  | addBalance (a : Address) (amount : Word)
  | subBalance (a : Address) (amount : Word)
  | setBalance (a : Address) (amount : Word)
  | setNonce (a : Address) (nonce : BitVec 64)
  | setCode (a : Address) (code : Bytes)
  | setState (a : Address) (key : Slot) (value : Word)
  | setTransientState (a : Address) (key : Slot) (value : Word)
  | createAccount (a : Address)
  | selfDestruct (a : Address)
  | selfdestruct6780 (a : Address)
  | setFlag (f : Flag) (a : Address)
  | clearFlag (f : Flag) (a : Address)
  | addRefund (gas : ℕ)
  | subRefund (gas : ℕ)
  | addLog (log : Log)

inductive Operation where
  | mutate (m : Mutation)
  | snapshot
  | revertToSnapshot (revid : ℕ)

namespace StateDB

def mutate (db : StateDB) : Mutation → StateDB
  | .addBalance a amount => db.addBalance a amount
  | .subBalance a amount => db.subBalance a amount
  | .setBalance a amount => db.setBalance a amount
  | .setNonce a nonce => db.setNonce a nonce
  | .setCode a code => db.setCode a code
  | .setState a key value => db.setState a key value
  | .setTransientState a key value => db.setTransientState a key value
  | .createAccount a => db.createAccount a
  | .selfDestruct a => db.selfDestruct a
  | .selfdestruct6780 a => db.selfdestruct6780 a
  | .setFlag f a => db.setFlag f a
  | .clearFlag f a => db.clearFlag f a
  | .addRefund gas => db.addRefund gas
  | .subRefund gas => db.subRefund gas
  | .addLog log => db.addLog log

lemma extends_mutate (db : StateDB) (m : Mutation) : db.Extends (db.mutate m) := by
  cases m with
  | addBalance => exact extends_addBalance
  | subBalance => exact extends_subBalance
  | setBalance => exact extends_setBalance
  | setNonce => exact extends_setNonce
  | setCode => exact extends_setCode
  | setState => exact extends_setState
  | setTransientState => exact extends_setTransientState
  | createAccount => exact extends_createAccount
  | selfDestruct => exact extends_selfDestruct
  | selfdestruct6780 => exact extends_selfdestruct6780
  | setFlag => exact extends_setFlag
  | clearFlag => exact extends_clearFlag
  | addRefund => exact extends_addRefund
  | subRefund => exact extends_subRefund
  | addLog => exact extends_addLog

theorem Extends.revertToSnapshot_of_le {db' : StateDB} {n : ℕ} (h : db.Extends db') (hn : db.snapshot ≤ n) :
    db.Extends (db'.revertToSnapshot n) := UndoLog.Extends.revertTo h hn

/-- The explicit mark on `ripemd` makes no difference at the end of the transaction. -/
def RipemdSettled (db : StateDB) : Prop :=
  ripemd ∈ db.dirties ∨ ∀ o, db.getStateObject ripemd = some o → o.dead=false ∧ o.created=false

/-- What the end of a transaction makes of the object of a dirty account. -/
def settle (o : Option StateObject) : Option StateObject :=
  o.bind fun o => if o.dead then none else some { o with created := false }

lemma settle_eq_iff (o : Option StateObject) : settle o = o ↔ ∀ o', o = some o' → o'.dead=false ∧ o'.created=false := by
  cases o with
  | none => simp [settle]
  | some o =>
    cases hdead : o.dead with
    | true => simp [settle,hdead]
    | false =>
      obtain ⟨nonce,balance,code,storage,extra,created,destroyed⟩ := o
      have hcreated : false=created ↔ created=false := eq_comm
      simp [settle,hdead,hcreated]

lemma toState_finalise (db : StateDB) : db.finalise.toState = { db.toState with
    objects := db.dirties.foldl finaliseObject db.objects
    refund := if db.journal.isEmpty then db.refund else 0 } := by
  rw [finalise,clearJournalAndRefund]
  dsimp only
  split <;> rfl

/-- Two states that differ in the mark alone end the transaction alike if the dirty objects one has more are settled. -/
theorem toState_finalise_mark (db : StateDB) (mark : Bool) :
    ({ db with ripemdDirty := mark } : StateDB).finalise.toState = db.finalise.toState ↔
      ∀ a, (if a ∈ ({ db with ripemdDirty := mark } : StateDB).dirties then settle (db.objects.lookup a)
        else db.objects.lookup a) = if a ∈ db.dirties then settle (db.objects.lookup a) else db.objects.lookup a := by
  have hobjects (l l' : List Address) : l.foldl finaliseObject db.objects = l'.foldl finaliseObject db.objects ↔
      ∀ a, (if a ∈ l then settle (db.objects.lookup a) else db.objects.lookup a) =
        if a ∈ l' then settle (db.objects.lookup a) else db.objects.lookup a := by
    simp only [settle,← lookup_finaliseObjects]
    exact ⟨fun h a => by rw [h],Finmap.ext_lookup⟩
  rw [← hobjects,toState_finalise,toState_finalise,State.mk.injEq]
  simp

/-- The mark that outlives a revert shows only at an account `ripemd` that nothing else made dirty. -/
theorem finalise_mark_iff (db : StateDB) {mark : Bool} (h : db.ripemdDirty=true → mark=true) :
    ({ db with ripemdDirty := mark } : StateDB).finalise.toState = db.finalise.toState ↔
      (mark=true → db.RipemdSettled) := by
  have hmem (a : Address) : a ∈ ({ db with ripemdDirty := mark } : StateDB).dirties ↔
      a ∈ db.dirties ∨ (mark=true ∧ a=ripemd) := by
    simp only [dirties,mem_append]
    cases hdb : db.ripemdDirty <;> cases mark <;> simp_all
  rw [toState_finalise_mark]
  constructor
  · intro hall hmark
    by_cases hd : ripemd ∈ db.dirties
    · exact .inl hd
    · have hripemd := hall ripemd
      rw [if_pos ((hmem _).mpr (.inr ⟨hmark,rfl⟩)),if_neg hd] at hripemd
      exact .inr ((settle_eq_iff _).mp hripemd)
  · intro hsettled a
    by_cases ha : mark=true ∧ a=ripemd ∧ a ∉ db.dirties
    · obtain ⟨hmark,rfl,hd⟩ := ha
      rw [if_pos ((hmem _).mpr (.inr ⟨hmark,rfl⟩)),if_neg hd]
      exact (settle_eq_iff _).mpr ((hsettled hmark).resolve_left hd)
    · have hsame : a ∈ ({ db with ripemdDirty := mark } : StateDB).dirties ↔ a ∈ db.dirties := by
        rw [hmem]
        tauto
      simp only [hsame]

@[simp]
lemma ripemdDirty_createObject (db : StateDB) (a : Address) : (db.createObject a).ripemdDirty = db.ripemdDirty := by
  rw [createObject]
  split <;> rfl

@[simp]
lemma ripemdDirty_getOrNewStateObject (db : StateDB) (a : Address) :
    (db.getOrNewStateObject a).ripemdDirty = db.ripemdDirty := by
  rw [getOrNewStateObject]
  split
  · rfl
  · exact ripemdDirty_createObject db a

@[simp]
lemma ripemdDirty_update (db : StateDB) (a : Address) (entry : StateObject → JournalEntry)
    (f : StateObject → StateObject) : (db.update a entry f).ripemdDirty = db.ripemdDirty :=
  ripemdDirty_getOrNewStateObject db a

lemma ripemdDirty_touch {a : Address} (h : db.ripemdDirty=true) : (db.touch a).ripemdDirty=true := by
  rw [touch]
  split
  · rfl
  · exact h

lemma ripemdDirty_selfDestruct (db : StateDB) (a : Address) : (db.selfDestruct a).ripemdDirty = db.ripemdDirty := by
  rw [selfDestruct]
  split <;> rfl

lemma ripemdDirty_mutate (m : Mutation) (h : db.ripemdDirty=true) : (db.mutate m).ripemdDirty=true := by
  have hnew (a : Address) : (db.getOrNewStateObject a).ripemdDirty=true :=
    (ripemdDirty_getOrNewStateObject db a).trans h
  cases m with
  | addBalance a amount =>
    simp only [mutate,addBalance]
    split
    · split
      · exact ripemdDirty_touch (hnew a)
      · exact hnew a
    · exact (ripemdDirty_update _ a _ _).trans (hnew a)
  | subBalance a amount =>
    simp only [mutate,subBalance]
    split
    · exact hnew a
    · exact (ripemdDirty_update _ a _ _).trans (hnew a)
  | setBalance a | setNonce a | setCode a => exact hnew a
  | setState a key value =>
    simp only [mutate,setState]
    split
    · exact hnew a
    · exact (ripemdDirty_update _ a _ _).trans (hnew a)
  | setTransientState a key value =>
    simp only [mutate,setTransientState]
    split
    · exact h
    · exact h
  | createAccount a =>
    simp only [mutate,createAccount]
    split
    · exact (ripemdDirty_createObject db a).trans h
    · exact (ripemdDirty_createObject db a).trans h
  | selfDestruct a => exact (ripemdDirty_selfDestruct db a).trans h
  | selfdestruct6780 a =>
    simp only [mutate,selfdestruct6780]
    split
    · exact h
    · split
      · exact (ripemdDirty_selfDestruct db a).trans h
      · exact h
  | setFlag f a =>
    simp only [mutate,setFlag]
    split
    · exact hnew a
    · exact (ripemdDirty_update _ a _ _).trans (hnew a)
  | clearFlag f a =>
    simp only [mutate,clearFlag]
    split
    · exact (ripemdDirty_update _ a _ _).trans (hnew a)
    · split
      · exact ripemdDirty_touch (hnew a)
      · exact hnew a
  | addRefund | subRefund | addLog => exact h

end StateDB

namespace RevisionDB

def mutate (s : RevisionDB) (m : Mutation) : RevisionDB := { s with db := s.db.mutate m }

def snapshot (s : RevisionDB) : RevisionDB where
  db := s.db
  validRevisions := s.validRevisions++[⟨s.nextRevisionId,s.db.snapshot⟩]
  nextRevisionId := s.nextRevisionId+1
  ordered := pairwise_append.mpr ⟨s.ordered,pairwise_singleton _ _,fun r hr r' hr' => by
    rw [mem_singleton.mp hr']
    exact s.bounded r hr⟩
  bounded r hr := by
    rcases mem_append.mp hr with hr | hr
    · exact Nat.lt_succ_of_lt (s.bounded r hr)
    · rw [mem_singleton.mp hr]
      exact Nat.lt_succ_self _

/-- Undo down to a revision, given by its place and its journal index. -/
def rewind (s : RevisionDB) (idx journalIndex : ℕ) : RevisionDB where
  db := s.db.revertToSnapshot journalIndex
  validRevisions := s.validRevisions.take idx
  nextRevisionId := s.nextRevisionId
  ordered := s.ordered.sublist (take_sublist _ _)
  bounded r hr := s.bounded r (mem_of_mem_take hr)

/-- A revision that is not valid panics: there is no result. -/
def revertToSnapshot (s : RevisionDB) (revid : ℕ) : Option RevisionDB :=
  let idx := s.validRevisions.findIdx fun r => revid ≤ r.id
  match s.validRevisions[idx]? with
  | none => none
  | some r => if r.id≠revid then none else some (s.rewind idx r.journalIndex)

def step (s : RevisionDB) : Operation → Option RevisionDB
  | .mutate m => some (s.mutate m)
  | .snapshot => some s.snapshot
  | .revertToSnapshot revid => s.revertToSnapshot revid

def run (s : RevisionDB) (ops : List Operation) : Option RevisionDB := ops.foldlM step s

lemma revertToSnapshot_some {s' : RevisionDB} {revid : ℕ} (h : s.revertToSnapshot revid = some s') :
    ∃ older r newer, s.validRevisions = older++r::newer ∧ r.id=revid ∧
      s'.db = s.db.revertToSnapshot r.journalIndex ∧ s'.validRevisions = older := by
  simp only [revertToSnapshot] at h
  split at h
  · cases h
  · rename_i r hr
    split at h
    · cases h
    · rename_i hid
      obtain ⟨hlt,rfl⟩ := List.getElem?_eq_some_iff.mp hr
      cases h
      refine ⟨_,_,s.validRevisions.drop (s.validRevisions.findIdx (fun r => revid ≤ r.id)+1),?_,
        by simpa using hid,rfl,rfl⟩
      rw [getElem_cons_drop hlt]
      exact (take_append_drop ..).symm

theorem revertToSnapshot_of_eq {r : Revision}
    (h : s.validRevisions = older++r::newer) : ∃ s', s.revertToSnapshot r.id = some s' ∧
      s'.db = s.db.revertToSnapshot r.journalIndex ∧ s'.validRevisions = older := by
  have hordered := s.ordered
  rw [h] at hordered
  have holder : ∀ r' ∈ older, ¬ r.id ≤ r'.id := fun r' hr' =>
    Nat.not_le.mpr ((pairwise_append.mp hordered).2.2 r' hr' r (mem_cons_self ..))
  have hidx : s.validRevisions.findIdx (fun r' => decide (r.id ≤ r'.id)) = older.length := by
    rw [h,findIdx_append,findIdx_eq_length_of_false]
    · simp [findIdx_cons]
    · simpa using holder
  have hget : s.validRevisions[older.length]? = some r := by simp [h]
  refine ⟨s.rewind older.length r.journalIndex,?_,rfl,by simp [rewind,h]⟩
  simp only [revertToSnapshot,hidx,hget]
  simp

/-- What holds between taking a revision and the revert to it. -/
structure Since (start : RevisionDB) (r : Revision) (s : RevisionDB) : Prop where
  extended : start.db.Extends s.db
  mark : start.db.ripemdDirty=true → s.db.ripemdDirty=true
  valid : ∃ newer, s.validRevisions = start.validRevisions++r::newer ∧
    ∀ r' ∈ newer, start.db.snapshot ≤ r'.journalIndex

variable {start s' : RevisionDB} {r : Revision}

section
variable (h : Since start r s)
include h

lemma Since.snapshot_le : start.db.snapshot ≤ s.db.snapshot := by
  obtain ⟨entries,hlog,-⟩ := h.extended
  change start.db.logged.log.length ≤ s.db.logged.log.length
  rw [hlog,length_append]
  exact Nat.le_add_left _ _

theorem Since.split {r' : Revision} (hvalid : s.validRevisions = older++r'::newer) (hr' : r.id<r'.id) :
    start.db.snapshot ≤ r'.journalIndex ∧ ∃ between, older = start.validRevisions++r::between ∧
      ∀ x ∈ between, start.db.snapshot ≤ x.journalIndex := by
  obtain ⟨since,hsince,hindex⟩ := h.valid
  have hordered := s.ordered
  rw [hsince] at hordered
  have heq : older++r'::newer = (start.validRevisions++[r])++since := by
    rw [← hvalid,hsince,append_assoc]
    rfl
  rcases append_eq_append_iff.mp heq with ⟨c,hc,hrest⟩ | ⟨c,rfl,hrest⟩
  · cases c with
    | nil =>
      rw [append_nil] at hc
      subst hrest
      exact ⟨hindex r' (mem_cons_self ..),[],hc.symm,by simp⟩
    | cons x c =>
      -- a revision up to `r` has no newer id
      obtain ⟨rfl,-⟩ := List.cons.inj hrest
      have hmem : r' ∈ start.validRevisions++[r] := hc ▸ mem_append_right _ (mem_cons_self ..)
      rcases mem_append.mp hmem with hmem | hmem
      · have hlt := (pairwise_append.mp hordered).2.2 r' hmem r (mem_cons_self ..)
        omega
      · rw [mem_singleton.mp hmem] at hr'
        omega
  · subst hrest
    refine ⟨hindex r' (by simp),c,by simp,fun x hx => hindex x (by simp [hx])⟩

lemma Since.step {op : Operation} (hop : ∀ revid, op = .revertToSnapshot revid → r.id<revid)
    (hstep : s.step op = some s') : Since start r s' := by
  cases op with
  | mutate m =>
    cases hstep
    exact ⟨h.extended.trans (StateDB.extends_mutate s.db m),fun hm => StateDB.ripemdDirty_mutate m (h.mark hm),h.valid⟩
  | snapshot =>
    cases hstep
    obtain ⟨newer,hvalid,hindex⟩ := h.valid
    refine ⟨h.extended,h.mark,newer++[⟨s.nextRevisionId,s.db.snapshot⟩],by simp [snapshot,hvalid],?_⟩
    intro x hx
    rcases mem_append.mp hx with hx | hx
    · exact hindex x hx
    · rw [mem_singleton.mp hx]
      exact h.snapshot_le
  | revertToSnapshot revid =>
    obtain ⟨older,r',newer,hvalid,hid,hdb,holder⟩ := revertToSnapshot_some hstep
    obtain ⟨hindex,between,hbetween,hbelow⟩ := h.split hvalid (hid ▸ hop revid rfl)
    refine ⟨?_,fun hm => ?_,between,holder.trans hbetween,hbelow⟩
    · rw [hdb]
      exact h.extended.revertToSnapshot_of_le hindex
    · rw [hdb]
      exact h.mark hm

lemma Since.run {ops : List Operation}
    (hops : ∀ revid, .revertToSnapshot revid ∈ ops → r.id<revid) (hrun : s.run ops = some s') : Since start r s' := by
  induction ops generalizing s with
  | nil =>
    cases hrun
    exact h
  | cons op ops ih =>
    obtain ⟨s₁,hstep,hrest⟩ := Option.bind_eq_some_iff.mp (show (s.step op).bind (·.run ops) = some s' from hrun)
    refine ih (h.step ?_ hstep) (fun revid hmem => hops revid (mem_cons_of_mem _ hmem)) hrest
    rintro revid rfl
    exact hops revid (mem_cons_self ..)

end

lemma since_snapshot (start : RevisionDB) : Since start ⟨start.nextRevisionId,start.db.snapshot⟩ start.snapshot :=
  ⟨.refl _,id,[],rfl,by simp⟩

/-- The revert to a snapshot after any operations that do not revert past it: everything the state holds is as it was
when the snapshot was taken, for all getters alike, and so are the journal and the older revisions. The end of the
transaction is as if nothing had happened, but for the mark that a touch of `ripemd` leaves. -/
theorem revertToSnapshot_restores {start s : RevisionDB} {ops : List Operation}
    (hops : ∀ revid, .revertToSnapshot revid ∈ ops → start.nextRevisionId<revid)
    (hrun : start.snapshot.run ops = some s) :
    ∃ s', s.revertToSnapshot start.nextRevisionId = some s' ∧ s'.db.toState=start.db.toState ∧
      s'.db.journal=start.db.journal ∧ s'.validRevisions=start.validRevisions ∧
      (s'.db.finalise.toState=start.db.finalise.toState ↔ (s.db.ripemdDirty=true → start.db.RipemdSettled)) := by
  have hsince := (since_snapshot start).run hops hrun
  obtain ⟨newer,hvalid,-⟩ := hsince.valid
  obtain ⟨s',hrevert,hdb,hrevisions⟩ := revertToSnapshot_of_eq hvalid
  rw [hsince.extended.revertToSnapshot] at hdb
  refine ⟨s',hrevert,by rw [hdb],by rw [hdb],hrevisions,?_⟩
  rw [hdb]
  exact StateDB.finalise_mark_iff start.db hsince.mark

/-- A state as the genesis may leave it: one empty account, at `ripemd`. -/
def emptyRipemd : RevisionDB where
  db := { objects := Finmap.singleton ripemd { StateObject.new with created := false }
          logs := []
          refund := 0
          transient := fun _ _ => 0
          journal := []
          ripemdDirty := false }
  validRevisions := []
  nextRevisionId := 0
  ordered := .nil
  bounded r hr := by simp at hr

/-- A nested revert and a change of every kind of bit, undone by the revert to the snapshot before them. -/
def flagged : List Operation :=
  [.mutate (.setFlag .blacklisted 7),.snapshot,.mutate (.addBalance 7 5),.revertToSnapshot 1,
    .mutate (.setFlag .authorized 8)]

theorem revertToSnapshot_restores_flagged : ∃ s s', emptyRipemd.snapshot.run flagged = some s ∧
    s.revertToSnapshot 0 = some s' ∧ s'.db.toState=emptyRipemd.db.toState ∧
    s'.db.finalise.toState=emptyRipemd.db.finalise.toState := by
  have hsome : (emptyRipemd.snapshot.run flagged).isSome=true := by decide +kernel
  obtain ⟨s,hrun⟩ := Option.isSome_iff_exists.mp hsome
  have hmark : s.db.ripemdDirty=false := by
    have h : (emptyRipemd.snapshot.run flagged).map (·.db.ripemdDirty) = some false := by decide +kernel
    simpa [hrun] using h
  have hops : ∀ revid, .revertToSnapshot revid ∈ flagged → emptyRipemd.nextRevisionId<revid := by
    intro revid h
    simp only [flagged,List.mem_cons,Operation.revertToSnapshot.injEq,reduceCtorEq,false_or,List.not_mem_nil,
      or_false] at h
    exact h ▸ Nat.one_pos
  obtain ⟨s',hrevert,hstate,-,-,hfinalise⟩ := revertToSnapshot_restores hops hrun
  exact ⟨s,s',hrun,hrevert,hstate,hfinalise.mpr (by simp [hmark])⟩

/-- A reverted payment of nothing still lets the end of the transaction delete the empty account `ripemd`. -/
theorem reverted_touch_deletes_ripemd :
    ((emptyRipemd.snapshot.run [.mutate (.addBalance ripemd 0)]).bind (·.revertToSnapshot 0)).map
        (fun s => (s.db.exist ripemd,s.db.finalise.exist ripemd)) = some (true,false) ∧
      emptyRipemd.db.finalise.exist ripemd=true := by
  decide +kernel

end RevisionDB

end StableNet.Evm
