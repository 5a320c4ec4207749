import StableNet.Wbft.Backlog

/-! The books of the backlog: its keys are those of the queued messages, and a queue stays below the cap as long as no
round from 100 on is queued. -/
namespace StableNet.Wbft
open Chain
variable {m : Message} {src : Address}

namespace Core

/-- The keys are those of the queued messages, each once. -/
structure Booked (queue : Prque Message) (keys : List BacklogKey) : Prop where
  perm : keys.Perm (queue.map fun x => backlogKey x.1)
  nodup : keys.Nodup

section Booked

variable {c : Core} {q : Prque Message} {keys : List BacklogKey}

lemma booked_nil : Booked [] [] := ⟨.refl _,List.nodup_nil⟩

lemma Booked.of_perm {q' : Prque Message} (h : Booked q keys) (hq : q.Perm q') : Booked q' keys :=
  ⟨h.perm.trans (hq.map _),h.nodup⟩

lemma Booked.cons {prio : ℤ} (h : Booked q keys) (hm : backlogKey m ∉ keys) :
    Booked ((m,prio)::q) (backlogKey m::keys) := ⟨h.perm.cons _,List.nodup_cons.mpr ⟨hm,h.nodup⟩⟩

lemma Booked.erase {prio : ℤ} (h : Booked ((m,prio)::q) keys) : Booked q (keys.erase (backlogKey m)) := by
  refine ⟨?_,h.nodup.erase _⟩
  have := h.perm.erase (backlogKey m)
  simpa using this

lemma drain_booked {fuel : ℕ} {d : Drained} (h : Booked d.queue d.keys) :
    Booked (c.drain fuel d).queue (c.drain fuel d).keys := by
  induction fuel generalizing d with
  | zero => exact h
  | succ fuel ih =>
    unfold drain
    split
    · exact h
    · rename_i m prio rest hpop
      have hpopped := h.of_perm (Prque.pop_eq_some hpop).1
      split
      · exact hpopped
      · exact ih hpopped.erase
      · exact ih hpopped.erase
      · exact ih hpopped.erase

def BacklogState.Booked (s : BacklogState) : Prop :=
  ∀ src, Core.Booked ((s.backlogs.lookup src).getD []) ((s.backlogKeys.lookup src).getD [])

lemma processSource_booked {s : BacklogState} (h : s.Booked) (a : Address) : (c.processSource s a).Booked := by
  intro src
  by_cases heq : src=a
  · subst heq
    unfold processSource
    split
    · simpa using booked_nil
    · simpa using drain_booked (h src)
  · obtain ⟨hq,hk⟩ := c.processSource_lookup_ne (s := s) heq
    rw [hq,hk]
    exact h src

lemma processBacklog_booked (h : ∀ src, Booked (c.queue src) (c.keys src)) (src : Address) :
    Booked (c.processBacklog.queue src) (c.processBacklog.keys src) := by
  have hfold (srcs : List Address) (s : BacklogState) (hs : s.Booked) :
      (srcs.foldl c.processSource s).Booked := by
    induction srcs generalizing s with
    | nil => exact hs
    | cons a srcs ih => exact ih _ (processSource_booked hs a)
  exact hfold c.backlogs.entries.keys ⟨c.backlogs,c.backlogKeys,c.posted⟩ h src

lemma addToBacklog_queue_ne (h : src≠m.source) :
    (c.addToBacklog m).queue src = c.queue src ∧ (c.addToBacklog m).keys src = c.keys src := by
  unfold addToBacklog queue keys
  dsimp only
  split <;> simp [h]

lemma addToBacklog_cases (m : Message) : (c.addToBacklog m).queue m.source = c.queue m.source ∧
      (c.addToBacklog m).keys m.source = c.keys m.source ∨
    (c.addToBacklog m).queue m.source = (m,priority m)::c.queue m.source ∧
      ((c.addToBacklog m).keys m.source = backlogKey m::c.keys m.source ∧ backlogKey m ∉ c.keys m.source ∨
        (c.addToBacklog m).keys m.source = [backlogKey m] ∧ c.queue m.source = []) := by
  unfold addToBacklog queue keys
  dsimp only
  split
  · rename_i hadmits
    right
    cases hl : c.backlogs.lookup m.source with
    | none => simp [priority]
    | some backlog =>
      simp only [admitsBacklog,hl,Bool.and_eq_true,decide_eq_true_eq] at hadmits
      simp [priority,hadmits.2.1]
  · simp

lemma addToBacklog_booked (h : ∀ src, Booked (c.queue src) (c.keys src)) (m : Message)
    (src : Address) : Booked ((c.addToBacklog m).queue src) ((c.addToBacklog m).keys src) := by
  by_cases heq : src=m.source
  · subst heq
    rcases c.addToBacklog_cases m with ⟨hq,hk⟩ | ⟨hq,⟨hk,hnew⟩ | ⟨hk,hnil⟩⟩
    · rw [hq,hk]
      exact h _
    · rw [hq,hk]
      exact (h _).cons hnew
    · rw [hq,hk,hnil]
      exact booked_nil.cons (by simp)
  · obtain ⟨hq,hk⟩ := c.addToBacklog_queue_ne heq
    rw [hq,hk]
    exact h src

end Booked

/-- A move leaves the backlog alone, adds the message it handles, or looks through the backlog in a
view that is not earlier. -/
inductive Shelves (e : Event) (c c' : Core) : Prop
  | keep (hbacklogs : c'.backlogs=c.backlogs) (hkeys : c'.backlogKeys=c.backlogKeys)
      (hview : c'.currentView=c.currentView)
  | add (m : Message) (hbrought : c.brought e = some m) (hfuture : c.Future m) (hadd : c' = c.addToBacklog m)
  | sift (c₁ : Core) (hbacklogs₁ : c₁.backlogs=c.backlogs) (hkeys₁ : c₁.backlogKeys=c.backlogKeys)
      (hbacklogs : c'.backlogs=c₁.processBacklog.backlogs)
      (hkeys : c'.backlogKeys=c₁.processBacklog.backlogKeys)
      (hview : c'.currentView=c₁.currentView) (hle : c.currentView.cmp c'.currentView ≠ .gt)

section Shelves

variable {b : Backend} {e : Event} {c₀ c c' : Core}

lemma setState_sifts (c : Core) (st : State) : ∃ c₁ : Core, c₁.backlogs=c.backlogs ∧
    c₁.backlogKeys=c.backlogKeys ∧ c₁.current=c.current ∧ c.setState st=c₁.processBacklog := by
  let c₀ : Core := { c with state := st }
  refine ⟨if st = .acceptRequest then c₀.processPendingRequests else c₀,?_,?_,?_,rfl⟩ <;> split <;> rfl

lemma setState_currentView (c : Core) (st : State) : (c.setState st).currentView = c.currentView := by
  simp [currentView]

lemma Shelves.of_setState (c₀ : Core) (st : State) (hbacklogs₀ : c₀.backlogs=c.backlogs)
    (hkeys₀ : c₀.backlogKeys=c.backlogKeys) (hbacklogs : c'.backlogs = (c₀.setState st).backlogs)
    (hkeys : c'.backlogKeys = (c₀.setState st).backlogKeys) (hview : c'.currentView=c₀.currentView)
    (hle : c.currentView.cmp c'.currentView ≠ .gt) : Shelves e c c' := by
  obtain ⟨c₁,hb,hk,hc,heq⟩ := c₀.setState_sifts st
  rw [heq] at hbacklogs hkeys
  refine .sift c₁ (hb.trans hbacklogs₀) (hk.trans hkeys₀) hbacklogs hkeys (hview.trans ?_) hle
  simp only [currentView,hc]

lemma Shelves.of_enterRound (r : ℤ) (hbacklogs₀ : c₀.backlogs=c.backlogs) (hkeys₀ : c₀.backlogKeys=c.backlogKeys)
    (hle : c.currentView.cmp (c₀.enterRound b r).currentView ≠ .gt) : Shelves e c (c₀.enterRound b r) := by
  let c₁ : Core := { c₀ with valSet := c₀.valSet.calcProposer b.lastProposer (uint64 c₀.current.round) }
  have hreset : (c₀.enterRound b r).backlogs = (c₁.setState .acceptRequest).backlogs ∧
      (c₀.enterRound b r).backlogKeys = (c₁.setState .acceptRequest).backlogKeys := by
    unfold enterRound resetRoundChanges
    dsimp only
    split <;> exact ⟨rfl,rfl⟩
  refine .of_setState c₁ .acceptRequest hbacklogs₀ hkeys₀ hreset.1 hreset.2 ?_ hle
  simp [currentView,enterRound_current,c₁]

lemma changeRound_backlogs (b : Backend) (c : Core) (r : ℕ) :
    (c.changeRound b r).backlogs = c.backlogs ∧ (c.changeRound b r).backlogKeys = c.backlogKeys := by
  unfold changeRound discardBadLock
  split <;> exact ⟨rfl,rfl⟩

lemma Move.shelves (h : Move b e c₀ c c') : Shelves e c c' := by
  have hle := h.votes.view
  cases h with
  | backlog m _ hbrought _ hcheck => exact .add m hbrought hcheck rfl
  | extraSeal m =>
    obtain ⟨p,q,heq⟩ := addToExtraSeal_eq c m
    rw [heq]
    exact .keep rfl rfl rfl
  | wait | prepare | commit | request | store | fireRetry | firePreprepare => exact .keep rfl rfl rfl
  | accept m =>
    exact .of_setState { c.newRoundChangeTimer with current := { c.current with preprepare := some m } }
      .preprepared rfl rfl rfl rfl (setState_currentView _ _) hle
  | lock proposal =>
    exact .of_setState (c.lockProposal proposal) .prepared rfl rfl rfl rfl
      (setState_currentView _ _) hle
  | decide proposal =>
    exact .of_setState c .committed rfl rfl rfl rfl (setState_currentView _ _) hle
  | file m _ _ _ _ _ hadd =>
    obtain ⟨rcs,rfl⟩ := addRoundChange_eq_some hadd
    exact .keep rfl rfl rfl
  | changeRound r =>
    obtain ⟨hb,hk⟩ := changeRound_backlogs b c r.toNat
    exact .of_enterRound r hb hk hle
  | changeSequence r => exact .of_enterRound r rfl rfl hle
  | ask r =>
    unfold broadcastRoundChange
    dsimp only
    split <;> exact .keep rfl rfl rfl
  | propose r =>
    unfold sendPreprepareMsg
    split <;> exact .keep rfl rfl rfl

end Shelves

/-- A message the core may still have to wait for in a view: for the next sequence, or for a round
that is not over. -/
structure InWindow (view : View) (m : Message) : Prop where
  small : m.view.sequence<2^53
  window : m.view.sequence = view.sequence+1 ∧ m.view.round<roundThreshold ∨
    m.code ≠ .roundChange ∧ m.view.sequence=view.sequence ∧ view.round ≤ m.view.round ∧
      m.view.round ≤ view.round+roundThreshold ∧ m.view.round<100

section Window

variable {c : Core} {view : View} {f : Message}

lemma inWindow_of_future (h : c.Future m) (hseq : m.view.sequence<2^53)
    (hround : m.code ≠ .roundChange → m.view.round<100) : InWindow c.currentView m := by
  refine ⟨hseq,?_⟩
  rcases h.cases with hnext | ⟨hcode,⟨hs,hlt,hle⟩ | ⟨hview,_⟩⟩
  · exact .inl hnext
  · exact .inr ⟨hcode,hs,hlt.le,hle,hround hcode⟩
  · exact .inr ⟨hcode,by simp [hview],by simp [hview],by simp [hview],hround hcode⟩

lemma InWindow.rank_lt (h : InWindow view m) : rank m<2^63 := by
  have hs := h.small
  have := msgPriority_le m.code
  have hw := h.window
  unfold roundThreshold at hw
  unfold rank
  split <;> omega

lemma rank_of_ne (h : m.code ≠ .roundChange) : m.view.sequence*1000+m.view.round*10<rank m ∧
      rank m ≤ m.view.sequence*1000+m.view.round*10+3 := by
  have := msgPriority_pos h
  have := msgPriority_le m.code
  unfold rank
  rw [if_neg h]
  omega

lemma sequence_le_rank (m : Message) : m.view.sequence*1000 ≤ rank m := by
  unfold rank
  split <;> omega

theorem lt_rank_of_future (h : c.Future m) :
    m.view.sequence = c.current.sequence+1 ∨ m.view.sequence=c.current.sequence ∧
      c.current.sequence*1000+c.current.round*10<rank m := by
  rcases h.cases with ⟨hnext,_⟩ | ⟨hcode,⟨hs,hlt,_⟩ | ⟨hview,_⟩⟩
  · exact .inl hnext
  · have hrank := (rank_of_ne hcode).1
    refine .inr ⟨hs,?_⟩
    rw [hs] at hrank
    omega
  · have hrank := (rank_of_ne hcode).1
    rw [hview,currentView_sequence,currentView_round] at hrank
    exact .inr ⟨congrArg View.sequence hview,hrank⟩

/-- What waits behind a message that is still of the future in a later view is in the window of that
view: everything older has a larger priority. -/
theorem InWindow.later (hm : InWindow view m) (hf : InWindow view f) (hfuture : c.Future f)
    (hle : view.cmp c.currentView ≠ .gt) (hrank : rank f ≤ rank m) : InWindow c.currentView m := by
  refine ⟨hm.small,?_⟩
  rw [Ne,View.cmp_eq_gt,currentView_sequence,currentView_round] at hle
  have hfseq : f.view.sequence ≤ view.sequence+1 := by
    have := hf.window
    omega
  have hlo := lt_rank_of_future hfuture
  have hfrank := sequence_le_rank f
  have hten : roundThreshold=10 := rfl
  simp only [currentView_sequence,currentView_round]
  by_cases hcode : m.code = .roundChange
  · have hrank' : rank m = m.view.sequence*1000 := if_pos hcode
    left
    rcases hm.window with hs | hs
    · omega
    · exact absurd hcode hs.1
  · have hrank' := rank_of_ne hcode
    have hs : m.view.sequence = view.sequence+1 ∧ m.view.round<roundThreshold ∨
        m.view.sequence=view.sequence ∧ m.view.round ≤ view.round+roundThreshold ∧
          m.view.round<100 := hm.window.imp_right fun h => ⟨h.2.1,h.2.2.2⟩
    by_cases hnext : m.view.sequence = c.current.sequence+1
    · exact .inl ⟨hnext,by omega⟩
    · exact .inr ⟨hcode,by omega,by omega,by omega,by omega⟩

end Window

end Core

/-- The message of the event, if it has one, is of a sequence and a round that priorities can order. -/
def Event.Low : Event → Prop
  | .message m | .backlog m => m.view.sequence<2^53 ∧ (m.code ≠ .roundChange → m.view.round<100)
  | _ => True

instance : ∀ e : Event, Decidable e.Low
  | .message _ | .backlog _ => inferInstanceAs (Decidable (_ ∧ _))
  | .request _ | .timeout | .finalCommitted | .retryTimeout _ | .fireRetryTimer
  | .fireFuturePreprepareTimer => inferInstanceAs (Decidable True)

namespace Core

/-- Every queued message has its own priority and is in the window of the present view. -/
def Tidy (c : Core) : Prop := ∀ src, ∀ x ∈ c.queue src, x.2 = priority x.1 ∧ InWindow c.currentView x.1

section Tidy

variable {b : Backend} {e : Event} {c c' : Core}

lemma Shelves.booked (h : Shelves e c c') (hc : ∀ src, Booked (c.queue src) (c.keys src))
    (src : Address) : Booked (c'.queue src) (c'.keys src) := by
  cases h with
  | keep hbacklogs hkeys =>
    unfold queue keys
    rw [hbacklogs,hkeys]
    exact hc src
  | add m _ _ hadd =>
    rw [hadd]
    exact addToBacklog_booked hc m src
  | sift c₁ hbacklogs₁ hkeys₁ hbacklogs hkeys =>
    have hbooked : Booked (c₁.processBacklog.queue src) (c₁.processBacklog.keys src) := by
      refine processBacklog_booked (fun a => ?_) src
      unfold queue keys
      rw [hbacklogs₁,hkeys₁]
      exact hc a
    unfold queue keys
    rw [hbacklogs,hkeys]
    exact hbooked

lemma mem_addToBacklog {x : Message × ℤ}
    (hx : x ∈ (c.addToBacklog m).queue src) : x ∈ c.queue src ∨ x = (m,priority m) := by
  by_cases heq : src=m.source
  · subst heq
    rcases c.addToBacklog_cases m with ⟨hq,_⟩ | ⟨hq,_⟩
    · exact .inl (hq ▸ hx)
    · rw [hq] at hx
      exact (List.mem_cons.mp hx).symm
  · exact .inl ((c.addToBacklog_queue_ne heq).1 ▸ hx)

theorem mem_addToBacklog_of_lt (hself : m.source≠c.address)
    (hkey : backlogKey m ∉ c.keys m.source) (hlen : (c.queue m.source).length < maxBacklogSizePerValidator) :
    (m,priority m) ∈ (c.addToBacklog m).queue m.source := by
  have hadmits : c.admitsBacklog m=true := by
    unfold admitsBacklog
    split
    · simpa using hself
    · rename_i backlog hl
      rw [queue,hl,Option.getD_some] at hlen
      simp only [Bool.and_eq_true,decide_eq_true_eq]
      exact ⟨hself,hkey,hlen⟩
  simp [queue,addToBacklog,hadmits,priority]

theorem Shelves.tidy (h : Shelves e c c') (hc : c.Tidy)
    (hlow : ∀ m, c.brought e = some m → m.view.sequence<2^53 ∧ (m.code ≠ .roundChange → m.view.round<100)) :
    c'.Tidy := by
  intro src x hx
  cases h with
  | keep hbacklogs hkeys hview =>
    rw [queue,hbacklogs] at hx
    rw [hview]
    exact hc src x hx
  | add m hbrought hfuture hadd =>
    rw [hadd] at hx ⊢
    rcases mem_addToBacklog hx with hx | rfl
    · exact hc src x hx
    · exact ⟨rfl,inWindow_of_future hfuture (hlow m hbrought).1 (hlow m hbrought).2⟩
  | sift c₁ hbacklogs₁ hkeys₁ hbacklogs hkeys hview hle =>
    rw [queue,hbacklogs] at hx
    obtain ⟨hmem,f,hf,hfuture,hprio⟩ := behind_future (c := c₁) hx
    rw [queue,hbacklogs₁] at hmem hf
    obtain ⟨hxp,hxw⟩ := hc src x hmem
    obtain ⟨hfp,hfw⟩ := hc src f hf
    rw [hxp,hfp,priority_of_lt hxw.rank_lt,priority_of_lt hfw.rank_lt] at hprio
    rw [hview] at hle ⊢
    exact ⟨hxp,hxw.later hfw hfuture hle (by omega)⟩

/-- The keys of all messages that may wait. -/
def windowKeys (view : View) : List BacklogKey :=
  (List.range roundThreshold).flatMap (fun r =>
    [Code.preprepare,.prepare,.commit,.roundChange].map fun code => ⟨code,view.sequence+1,r⟩) ++
  (List.range (roundThreshold+1)).flatMap fun r =>
    [Code.preprepare,.prepare,.commit].map fun code => ⟨code,view.sequence,view.round+r⟩

lemma length_windowKeys (view : View) : (windowKeys view).length = 73 := rfl

lemma InWindow.mem_windowKeys {view : View} (h : InWindow view m) : backlogKey m ∈ windowKeys view := by
  have hs := h.small
  rw [windowKeys,List.mem_append,List.mem_flatMap,List.mem_flatMap]
  rcases h.window with ⟨hseq,hround⟩ | ⟨hcode,hseq,hlo,hhi,hround⟩
  · left
    refine ⟨m.view.round,List.mem_range.mpr hround,?_⟩
    unfold roundThreshold at hround
    rw [backlogKey,uint64_of_lt (by omega),uint64_of_lt (by omega),hseq]
    cases m.code <;> simp
  · right
    refine ⟨m.view.round-view.round,List.mem_range.mpr (by omega),?_⟩
    rw [backlogKey,uint64_of_lt (by omega),uint64_of_lt (by omega),hseq,Nat.add_sub_cancel' hlo]
    cases hm : m.code <;> simp_all

theorem Tidy.length_le (h : c.Tidy) (hbooked : Booked (c.queue src) (c.keys src)) : (c.queue src).length ≤ 73 := by
  have hnodup := hbooked.perm.nodup_iff.mp hbooked.nodup
  have hsub : (c.queue src).map (fun x => backlogKey x.1) ⊆ windowKeys c.currentView := by
    intro k hk
    obtain ⟨x,hx,rfl⟩ := List.mem_map.mp hk
    exact (h src x hx).2.mem_windowKeys
  calc (c.queue src).length = ((c.queue src).map fun x => backlogKey x.1).length := by simp
    _ ≤ (windowKeys c.currentView).length := hnodup.length_le_of_subset hsub
    _=73 := length_windowKeys _

lemma low_of_brought (h : c.brought e = some m) (he : e.Low) :
    m.view.sequence<2^53 ∧ (m.code ≠ .roundChange → m.view.round<100) := by
  rcases brought_eq_some h with rfl | ⟨m₀,rfl,hm⟩
  · exact he
  · rw [Message.verifySignatures_view hm,Message.verifySignatures_code hm]
    exact he

lemma start_shelved (a : Address) (key : PublicKey) (b : Backend) :
    (∀ src, Booked ((start a key b).queue src) ((start a key b).keys src)) ∧ (start a key b).Tidy := by
  obtain ⟨c₀,hb,hk,hstart⟩ : ∃ c₀ : Core, c₀.backlogs=∅ ∧ c₀.backlogKeys=∅ ∧
      start a key b = c₀.enterRound b 0 := ⟨_,rfl,rfl,rfl⟩
  rw [hstart]
  have hview : (c₀.enterRound b 0).currentView = c₀.currentView := by
    simp [currentView,enterRound_current]
  have hshelves : Shelves .timeout c₀ (c₀.enterRound b 0) := .of_enterRound 0 rfl rfl (hview ▸ View.cmp_self_ne_gt _)
  refine ⟨hshelves.booked fun src => ?_,hshelves.tidy (fun src x hx => ?_) fun m hm => ?_⟩
  · simpa [queue,keys,hb,hk] using booked_nil
  · simp [queue,hb] at hx
  · simp [brought] at hm

end Tidy

end Core

namespace Net

variable {cfg : Config} {backends : Address → Backend} {ok : Net → Input → Prop} {net : Net}

/-- In every run the keys of a source are those of its queued messages. -/
theorem Reachable.booked (h : net.Reachable cfg backends ok) (a src : Address) :
    Core.Booked ((net.cores a).queue src) ((net.cores a).keys src) := by
  induction h generalizing a src with
  | init => exact (Core.start_shelved _ _ _).1 src
  | @step net i hreach hen _ ih =>
    refine forall_cores_next (P := fun _ c => ∀ src, Core.Booked (c.queue src) (c.keys src)) ?_
      (fun a _ src => ih a src) a src
    exact (hreach.moves hen).keeps (I := fun c => ∀ src, Core.Booked (c.queue src) (c.keys src))
      (fun _ _ hc hmove => hmove.shelves.booked hc) (ih i.node)

theorem tidy_of_low (h : net.Reachable cfg backends fun _ i => i.event.Low) (a : Address) : (net.cores a).Tidy := by
  induction h generalizing a with
  | init => exact (Core.start_shelved _ _ _).2
  | @step net i hreach hen hlow ih =>
    refine forall_cores_next (P := fun _ c => c.Tidy) ?_ (fun a _ => ih a) a
    exact (hreach.moves hen).keeps (fun _ _ hc hmove => hmove.shelves.tidy hc fun _ hm => Core.low_of_brought hm hlow)
      (ih i.node)

/-- In every run the keys kept for a source are exactly those of the messages queued for it, and no
two of these share a key. In every run of messages for rounds below 100 a message of the future that
is within the thresholds and no duplicate is queued: the queue of its source is never full. -/
theorem backlog_books (cfg : Config) (backends : Address → Backend) :
    (∀ net : Net, net.Reachable cfg backends (fun _ _ => True) → ∀ a src,
      ((net.cores a).keys src).Perm (((net.cores a).queue src).map fun x => Core.backlogKey x.1) ∧
      ((net.cores a).keys src).Nodup) ∧
    (∀ net : Net, net.Reachable cfg backends (fun _ i => i.event.Low) → ∀ (a : Address) (m : Message),
      m.source ≠ (net.cores a).address → (net.cores a).Future m → Core.backlogKey m ∉ (net.cores a).keys m.source →
      (m,Core.priority m) ∈ ((net.cores a).addToBacklog m).queue m.source) := by
  refine ⟨fun net h a src => ⟨(h.booked a src).perm,(h.booked a src).nodup⟩,?_⟩
  intro net h a m hself hfuture hkey
  have hlen := (tidy_of_low h a).length_le (h.booked a m.source)
  exact Core.mem_addToBacklog_of_lt hself hkey (hlen.trans_lt (by decide))

end Net

/-! ### Rounds from 100 on

Validators 1 and 2 are alone, and validator 2 is Byzantine. It takes the core of validator 1 from
round to round and sends it votes for later rounds. -/

namespace HighRounds
open FourValidators LateTimeout

def pair : Backend := { backend genesis with validators := fun _ => .newSet [1,2] [11,12] .roundRobin }

def roundChange (sequence round : ℕ) : Message := .roundChange
  { sequence, round, source := 2, signature := ⟨2,.roundChange sequence round none⟩
    preparedRound := none, preparedDigest := .zero, preparedBlock := none, justification := [] }

def messagesOf (round : ℕ) : List Message :=
  [.preprepare (proposalBy 2 round block1 [] []),.prepare (prepareBy 2 round block1),
    .commit (commitBy 2 round block1)]

/-- The ROUND-CHANGE of sequence 2 has a larger priority than whatever is for round 100 or later of
sequence 1, and is of the future as long as sequence 1 lasts. -/
def flood : List Message :=
  (List.range 10).map (fun k => roundChange 1 (10*k+10))++roundChange 2 0 ::
  (List.range' 101 10).flatMap messagesOf++roundChange 1 110 ::
  (List.range' 111 10).flatMap messagesOf++roundChange 1 120 ::
  (List.range' 121 9).flatMap messagesOf

/-- In round 120 the queue still holds the messages of rounds 101 to 119, and a new message for round
130, which is within the thresholds, is dropped. -/
theorem dropped_in_round_120 : ∃ net : Net,
    net.Reachable alone (fun _ => pair) (fun _ _ => True) ∧ (net.cores 1).current.round = 120 ∧
    ((net.cores 1).queue 2).length = Core.maxBacklogSizePerValidator ∧
    ∃ m ∈ messagesOf 130, m.source ∈ (net.cores 1).valSet.members ∧
      m.source ≠ (net.cores 1).address ∧ (net.cores 1).Future m ∧ Core.backlogKey m ∉ (net.cores 1).keys m.source ∧
      ((net.cores 1).addToBacklog m).queue m.source = (net.cores 1).queue m.source :=
  Net.exists_reachable_of_run alone (fun _ => pair) (fun _ _ => True) (fun _ _ => True)
    (flood.map fun m => ⟨1,pair,.message m⟩) (fun _ _ _ h => h)
    (fun net => (net.cores 1).current.round = 120 ∧
      ((net.cores 1).queue 2).length = Core.maxBacklogSizePerValidator ∧
      ∃ m ∈ messagesOf 130, m.source ∈ (net.cores 1).valSet.members ∧
        m.source ≠ (net.cores 1).address ∧ (net.cores 1).Future m ∧
        Core.backlogKey m ∉ (net.cores 1).keys m.source ∧
        ((net.cores 1).addToBacklog m).queue m.source = (net.cores 1).queue m.source)
    (by decide +kernel)

/-- The same messages up to round 20 leave room. -/
theorem queued_in_round_10 : ∃ net : Net, ((net.cores 1).queue 2).length = 31 ∧
    ∃ m, (m,Core.priority m) ∈ ((net.cores 1).addToBacklog m).queue 2 := by
  obtain ⟨net,hreach,hlen,hself,hfuture,hkey⟩ := Net.exists_reachable_of_run alone (fun _ => pair)
    (fun _ i => i.event.Low) (fun _ i => i.event.Low)
    ((roundChange 1 10::roundChange 2 0::(List.range' 11 10).flatMap messagesOf).map
      fun m => ⟨1,pair,.message m⟩) (fun _ _ _ h => h)
    (fun net => ((net.cores 1).queue 2).length = 31 ∧ (roundChange 2 1).source ≠ (net.cores 1).address ∧
      (net.cores 1).Future (roundChange 2 1) ∧
      Core.backlogKey (roundChange 2 1) ∉ (net.cores 1).keys (roundChange 2 1).source)
    (by decide +kernel)
  exact ⟨net,hlen,_,(Net.backlog_books alone fun _ => pair).2 net hreach 1 (roundChange 2 1) hself hfuture hkey⟩

end HighRounds

end StableNet.Wbft
