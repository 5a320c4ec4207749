import StableNet.Genesis.GovBase
import StableNet.Gov.Run
import StableNet.Lib.Indexed

/-! The members of a governance contract: the versions of the member list, the activity flags and the quorum. -/
namespace StableNet.Gov
open Chain (Address)
open Lib Base Contract List
open Function
variable {κ ω σ : Type} {msg : Msg} {success : Bool} {id : ℕ}

/-- The part of the storage that says who the members are. -/
structure Roster where
  memberVersion : ℕ
  quorum : ℕ
  members : Address → Member
  versionedMemberList : ℕ → List Address
  memberIndexByVersion : ℕ → Address → ℕ
  quorumByVersion : ℕ → ℕ

def Base.roster (g : Base κ) : Roster :=
  ⟨g.memberVersion,g.quorum,g.members,g.versionedMemberList,g.memberIndexByVersion,g.quorumByVersion⟩

def Roster.memberList (r : Roster) : List Address := r.versionedMemberList r.memberVersion

@[simp]
lemma Base.memberList_roster (g : Base κ) : g.roster.memberList=g.memberList := rfl

/-- A quorum that fits the number of members. -/
structure Quorate (quorum count : ℕ) : Prop where
  pos : 1 ≤ quorum
  le : quorum ≤ count
  reviewed : 2 ≤ count → 2 ≤ quorum

lemma quorate_of_checkQuorum {q n : ℕ} {u : Unit} (h : checkQuorum q n = .ok u) : Quorate q n := by
  unfold checkQuorum at h
  split at h
  · rename_i hn
    have hq : q=1 := of_decide_eq_true (require_eq_ok.mp h)
    exact ⟨by omega,by omega,by omega⟩
  · have hq : 2 ≤ q ∧ q ≤ n := of_decide_eq_true (require_eq_ok.mp h)
    exact ⟨by omega,hq.2,fun _ => hq.1⟩

lemma setIndices_append_singleton (m : Address → ℕ) (list : List Address) (a : Address) :
    setIndices m (list++[a]) = update (setIndices m list) a ((list.length+1)%2^32) := by
  simp [setIndices,zipIdx_append]

lemma indexed_setIndices {list : List Address} (hnodup : list.Nodup) (hlength : list.length<2^32) :
    Indexed list (setIndices (fun _ => 0) list) := by
  induction list using List.reverseRecOn with
  | nil => exact .nil
  | append_singleton list a ih =>
    rw [length_append,length_singleton] at hlength
    obtain ⟨hlist,_,hdisjoint⟩ := nodup_append.mp hnodup
    rw [setIndices_append_singleton,Nat.mod_eq_of_lt hlength]
    refine (ih hlist (by omega)).push fun ha => ?_
    exact hdisjoint a ha a (mem_singleton_self a) rfl

namespace Base
variable {g g' : Base κ} {a : Address} {q now : ℕ}

lemma addMember_eq_ok (h : g.addMember now a q = .ok g') :
    (g.members a).isActive=false ∧ a≠0 ∧ g.memberList.length<255 ∧ Quorate q (g.memberList.length+1) ∧
      g' = { g.nextVersion (g.memberList++[a]) with
        members := update g.members a ⟨true,now%2^32⟩
        quorum := q } := by
  obtain ⟨_,hactive,h⟩ := bind_eq_ok.mp h
  obtain ⟨_,hzero,h⟩ := bind_eq_ok.mp h
  obtain ⟨_,hroom,h⟩ := bind_eq_ok.mp h
  obtain ⟨_,hquorum,h⟩ := bind_eq_ok.mp h
  cases h
  exact ⟨by simpa using require_eq_ok.mp hactive,of_decide_eq_true (require_eq_ok.mp hzero),
    of_decide_eq_true (require_eq_ok.mp hroom),quorate_of_checkQuorum hquorum,rfl⟩

lemma removeMember_eq_ok (h : g.removeMember a q = .ok g') :
    (g.members a).isActive ∧ Quorate q (g.memberList.length-1) ∧ g' = { g.nextVersion (g.memberList.filter (· ≠ a)) with
        memberIndexByVersion := update
          (g.nextVersion (g.memberList.filter (· ≠ a))).memberIndexByVersion (g.memberVersion+1)
          (update ((g.nextVersion (g.memberList.filter (· ≠ a))).memberIndexByVersion
            (g.memberVersion+1)) a 0)
        members := update g.members a { g.members a with isActive := false }
        quorum := q } := by
  obtain ⟨_,hactive,h⟩ := bind_eq_ok.mp h
  obtain ⟨_,h⟩ := ok_of_bind h
  obtain ⟨_,h⟩ := ok_of_bind h
  obtain ⟨_,hquorum,h⟩ := bind_eq_ok.mp h
  cases h
  exact ⟨require_eq_ok.mp hactive,quorate_of_checkQuorum hquorum,rfl⟩

lemma changeQuorum_eq_ok (h : g.changeQuorum q = .ok g') :
    Quorate q g.memberList.length ∧ g' = { g with quorum := q }.snapshotQuorum q := by
  obtain ⟨_,hquorum,h⟩ := bind_eq_ok.mp h
  cases h
  exact ⟨quorate_of_checkQuorum hquorum,rfl⟩

lemma changeMaxProposals_eq_ok (h : g.changeMaxProposals q = .ok g') :
    g' = { g with maxActiveProposalsPerMember := q } := by
  obtain ⟨_,h⟩ := ok_of_bind h
  cases h
  rfl

lemma changeMember_eq_ok (h : g.changeMember msg a = .ok g') :
    (g.members msg.sender).isActive ∧ a≠0 ∧ msg.sender≠a ∧ (g.members a).isActive=false ∧
      msg.sender ∈ g.memberList ∧ g' = { g with
        versionedMemberList := update g.versionedMemberList g.memberVersion
          (g.memberList.set (g.memberList.idxOf msg.sender) a)
        memberIndexByVersion := update g.memberIndexByVersion g.memberVersion
          (update (update (g.memberIndexByVersion g.memberVersion) a
            (g.memberIndexByVersion g.memberVersion msg.sender)) msg.sender 0)
        members := update (update g.members a ⟨true,msg.timestamp%2^32⟩) msg.sender
          { g.members msg.sender with isActive := false }
        history := g.history.rotate msg.sender a (g.memberActiveProposalCount msg.sender) } := by
  obtain ⟨_,hactive,h⟩ := bind_eq_ok.mp h
  obtain ⟨_,hzero,h⟩ := bind_eq_ok.mp h
  obtain ⟨_,hsame,h⟩ := bind_eq_ok.mp h
  obtain ⟨_,hnew,h⟩ := bind_eq_ok.mp h
  obtain ⟨_,hmem,h⟩ := bind_eq_ok.mp h
  cases h
  exact ⟨require_eq_ok.mp hactive,of_decide_eq_true (require_eq_ok.mp hzero),
    of_decide_eq_true (require_eq_ok.mp hsame),by simpa using require_eq_ok.mp hnew,
    of_decide_eq_true (require_eq_ok.mp hmem),rfl⟩

end Base

/-- What holds of the members whatever the genesis parameters were. -/
structure Roll (r : Roster) : Prop where
  length_le : ∀ v, (r.versionedMemberList v).length ≤ 255
  above : ∀ v, r.memberVersion<v → r.versionedMemberList v = []
  nodup : r.memberList.Nodup
  active : ∀ a, (r.members a).isActive ↔ a ∈ r.memberList
  quorum_le : r.memberList ≠ [] → r.quorum ≤ r.memberList.length

/-- One version of the member list with its index map. -/
structure Listed (list : List Address) (index : Address → ℕ) : Prop where
  nonzero : ∀ a ∈ list, a≠0
  nonempty : list ≠ []
  indexed : Indexed list index

/-- The members of a contract that started with a member list and a quorum at version `first`. -/
structure Members (first : ℕ) (r : Roster) : Prop extends Roll r where
  first_le : first ≤ r.memberVersion
  listed : ∀ v, first ≤ v → v ≤ r.memberVersion → Listed (r.versionedMemberList v) (r.memberIndexByVersion v)
  unindexed : ∀ v, r.memberVersion<v → r.memberIndexByVersion v = fun _ => 0
  quorum_eq : r.quorum = r.quorumByVersion r.memberVersion
  quorate : Quorate r.quorum r.memberList.length

namespace Roster
variable {r : Roster} {list : List Address} {index : Address → ℕ} {members : Address → Member} {q : ℕ}

def next (r : Roster) (list : List Address) (index : Address → ℕ) (members : Address → Member) (q : ℕ) : Roster where
  memberVersion := r.memberVersion+1
  quorum := q
  members := members
  versionedMemberList := update r.versionedMemberList (r.memberVersion+1) list
  memberIndexByVersion := update r.memberIndexByVersion (r.memberVersion+1) index
  quorumByVersion := update r.quorumByVersion (r.memberVersion+1) q

/-- The current version of the member list with other addresses. -/
def rotate (r : Roster) (list : List Address) (index : Address → ℕ) (members : Address → Member) : Roster :=
  { r with
    members := members
    versionedMemberList := update r.versionedMemberList r.memberVersion list
    memberIndexByVersion := update r.memberIndexByVersion r.memberVersion index }

@[simp]
lemma memberList_next : (r.next list index members q).memberList = list := update_self ..

@[simp]
lemma memberList_rotate : (r.rotate list index members).memberList = list := update_self ..

end Roster

section
variable {r : Roster} {first : ℕ} {list : List Address} {index : Address → ℕ} {members : Address → Member} {q : ℕ}

lemma Roll.next (h : Roll r) (hlength : list.length ≤ 255) (hnodup : list.Nodup)
    (hactive : ∀ a, (members a).isActive ↔ a ∈ list) (hq : q ≤ list.length) : Roll (r.next list index members q) where
  length_le v := by
    simp only [Roster.next,update_apply]
    split
    · exact hlength
    · exact h.length_le v
  above v hv := by
    have hv : r.memberVersion+1<v := hv
    exact (update_of_ne (by omega) _ _).trans (h.above v (by omega))
  nodup := by rwa [Roster.memberList_next]
  active a := by
    rw [Roster.memberList_next]
    exact hactive a
  quorum_le _ := by rwa [Roster.memberList_next]

lemma Members.next (h : Members first r) (hlength : list.length ≤ 255)
    (hactive : ∀ a, (members a).isActive ↔ a ∈ list) (hlisted : Listed list index)
    (hquorate : Quorate q list.length) : Members first (r.next list index members q) where
  toRoll := h.toRoll.next hlength hlisted.indexed.nodup hactive hquorate.le
  first_le := Nat.le_succ_of_le h.first_le
  listed v hfirst hv := by
    simp only [Roster.next,update_apply]
    split
    · exact hlisted
    · exact h.listed v hfirst (Nat.le_of_lt_succ (Nat.lt_of_le_of_ne hv ‹_›))
  unindexed v hv := by
    have hv : r.memberVersion+1<v := hv
    exact (update_of_ne (by omega) _ _).trans (h.unindexed v (by omega))
  quorum_eq := by simp [Roster.next]
  quorate := by rwa [Roster.memberList_next]

lemma Roll.rotate (h : Roll r) (hlength : list.length=r.memberList.length) (hnodup : list.Nodup)
    (hactive : ∀ a, (members a).isActive ↔ a ∈ list) : Roll (r.rotate list index members) where
  length_le v := by
    simp only [Roster.rotate,update_apply]
    split
    · exact hlength.trans_le (h.length_le _)
    · exact h.length_le v
  above v hv := (update_of_ne (Nat.ne_of_gt hv) _ _).trans (h.above v hv)
  nodup := by rwa [Roster.memberList_rotate]
  active a := by
    rw [Roster.memberList_rotate]
    exact hactive a
  quorum_le hne := by
    rw [Roster.memberList_rotate] at hne ⊢
    rw [hlength]
    exact h.quorum_le fun hempty => hne (length_eq_zero_iff.mp (by rw [hlength,hempty]; rfl))

lemma Members.rotate (h : Members first r) (hlength : list.length=r.memberList.length)
    (hactive : ∀ a, (members a).isActive ↔ a ∈ list) (hlisted : Listed list index) :
    Members first (r.rotate list index members) where
  toRoll := h.toRoll.rotate hlength hlisted.indexed.nodup hactive
  first_le := h.first_le
  listed v hfirst hv := by
    simp only [Roster.rotate,update_apply]
    split
    · exact hlisted
    · exact h.listed v hfirst hv
  unindexed v hv := (update_of_ne (Nat.ne_of_gt hv) _ _).trans (h.unindexed v hv)
  quorum_eq := h.quorum_eq
  quorate := by
    rw [Roster.memberList_rotate,hlength]
    exact h.quorate

end

namespace Base
variable {g g' : Base κ} {a : Address} {q now : ℕ}

lemma roster_addMember (h : Roll g.roster) (hadd : g.addMember now a q = .ok g') :
    (g'.snapshotQuorum q).roster = g.roster.next (g.memberList++[a])
      (setIndices (g.memberIndexByVersion (g.memberVersion+1)) (g.memberList++[a]))
      (update g.members a ⟨true,now%2^32⟩) q := by
  obtain ⟨-,-,-,-,rfl⟩ := addMember_eq_ok hadd
  have hempty : g.versionedMemberList (g.memberVersion+1) = [] := h.above _ (Nat.lt_succ_self _)
  simp [roster,Roster.next,snapshotQuorum,nextVersion,hempty]

lemma roster_removeMember (h : Roll g.roster) (hremove : g.removeMember a q = .ok g') :
    (g'.snapshotQuorum q).roster = g.roster.next (g.memberList.erase a)
      (update (setIndices (g.memberIndexByVersion (g.memberVersion+1)) (g.memberList.erase a)) a 0)
      (update g.members a { g.members a with isActive := false }) q := by
  obtain ⟨-,-,rfl⟩ := removeMember_eq_ok hremove
  have hempty : g.versionedMemberList (g.memberVersion+1) = [] := h.above _ (Nat.lt_succ_self _)
  have hfilter : g.memberList.filter (· ≠ a) = g.memberList.erase a := by
    rw [List.Nodup.erase_eq_filter (show g.memberList.Nodup from h.nodup)]
    congr 1
    funext b
    simp [bne,BEq.beq]
  rw [hfilter]
  simp [roster,Roster.next,snapshotQuorum,nextVersion,hempty]

lemma roster_changeMember (hchange : g.changeMember msg a = .ok g') :
    g'.roster = g.roster.rotate (g.memberList.set (g.memberList.idxOf msg.sender) a)
      (update (update (g.memberIndexByVersion g.memberVersion) a
        (g.memberIndexByVersion g.memberVersion msg.sender)) msg.sender 0)
      (update (update g.members a ⟨true,msg.timestamp%2^32⟩) msg.sender
        { g.members msg.sender with isActive := false }) := by
  obtain ⟨-,-,-,-,-,rfl⟩ := changeMember_eq_ok hchange
  rfl

end Base

section
variable {g g' : Base κ} {a : Address} {q now first : ℕ}

section
variable (h : Roll g.roster)
include h

lemma active_addMember (b : Address) : (update g.members a ⟨true,now%2^32⟩ b).isActive ↔ b ∈ g.memberList++[a] := by
  have hactive : (g.members b).isActive ↔ b ∈ g.memberList := h.active b
  by_cases hb : b=a
  · subst hb
    simp
  · rw [update_of_ne hb,mem_append,mem_singleton,hactive]
    simp [hb]

lemma active_removeMember (b : Address) : (update g.members a { g.members a with isActive := false } b).isActive ↔
      b ∈ g.memberList.erase a := by
  have hactive : (g.members b).isActive ↔ b ∈ g.memberList := h.active b
  rw [List.Nodup.mem_erase_iff (show g.memberList.Nodup from h.nodup)]
  by_cases hb : b=a
  · subst hb
    simp
  · rw [update_of_ne hb,hactive]
    simp [hb]

lemma active_changeMember (hchange : g.changeMember msg a = .ok g') (b : Address) :
    (update (update g.members a ⟨true,msg.timestamp%2^32⟩) msg.sender
      { g.members msg.sender with isActive := false } b).isActive ↔
      b ∈ g.memberList.set (g.memberList.idxOf msg.sender) a := by
  obtain ⟨-,-,hne,-,hmem,-⟩ := Base.changeMember_eq_ok hchange
  have hactive : (g.members b).isActive ↔ b ∈ g.memberList := h.active b
  rw [mem_set_idxOf (show g.memberList.Nodup from h.nodup) hmem]
  by_cases hb : b=msg.sender
  · subst hb
    simp [hne]
  · rw [update_of_ne hb]
    by_cases hb' : b=a
    · subst hb'
      simp
    · rw [update_of_ne hb',hactive]
      simp [hb,hb']

lemma nodup_addMember (hactive : (g.members a).isActive=false) : (g.memberList++[a]).Nodup := by
  have ha : a ∉ g.memberList := fun hmem => by
    have : (g.members a).isActive := (h.active a).mpr hmem
    simp [hactive] at this
  exact nodup_append.mpr ⟨h.nodup,nodup_singleton a,fun x hx y hy hxy => ha (mem_singleton.mp hy ▸ hxy ▸ hx)⟩

lemma Roll.addMember (hadd : g.addMember now a q = .ok g') : Roll (g'.snapshotQuorum q).roster := by
  obtain ⟨hactive,_,hroom,hquorate,-⟩ := Base.addMember_eq_ok hadd
  rw [roster_addMember h hadd]
  refine h.next ?_ (nodup_addMember h hactive) (active_addMember h) ?_
  · rw [length_append,length_singleton]
    omega
  · rw [length_append,length_singleton]
    exact hquorate.le

end

lemma Members.addMember (h : Members first g.roster) (hadd : g.addMember now a q = .ok g') :
    Members first (g'.snapshotQuorum q).roster := by
  obtain ⟨hactive,hzero,hroom,hquorate,-⟩ := Base.addMember_eq_ok hadd
  have hlength : (g.memberList++[a]).length = g.memberList.length+1 := by simp
  have hindex : g.memberIndexByVersion (g.memberVersion+1) = fun _ => 0 := h.unindexed _ (Nat.lt_succ_self _)
  rw [roster_addMember h.toRoll hadd,hindex]
  refine h.next (by omega) (active_addMember h.toRoll) ⟨fun b hb => ?_,by simp,?_⟩ (by rwa [hlength])
  · rcases mem_append.mp hb with hb | hb
    · exact (h.listed _ h.first_le le_rfl).nonzero b hb
    · exact mem_singleton.mp hb ▸ hzero
  · exact indexed_setIndices (nodup_addMember h.toRoll hactive) (by omega)

lemma length_removeMember (h : Roll g.roster) (hactive : (g.members a).isActive) :
    (g.memberList.erase a).length = g.memberList.length-1 := length_erase_of_mem ((h.active a).mp hactive)

lemma Roll.removeMember (h : Roll g.roster) (hremove : g.removeMember a q = .ok g') :
    Roll (g'.snapshotQuorum q).roster := by
  obtain ⟨hactive,hquorate,-⟩ := Base.removeMember_eq_ok hremove
  have hlength : g.memberList.length ≤ 255 := h.length_le _
  have herase := length_removeMember h hactive
  rw [roster_removeMember h hremove]
  exact h.next (by omega) (h.nodup.erase a) (active_removeMember h) (herase ▸ hquorate.le)

lemma Members.removeMember (h : Members first g.roster) (hremove : g.removeMember a q = .ok g') :
    Members first (g'.snapshotQuorum q).roster := by
  obtain ⟨hactive,hquorate,-⟩ := Base.removeMember_eq_ok hremove
  have hlength : g.memberList.length ≤ 255 := h.length_le _
  have herase := length_removeMember h.toRoll hactive
  have hindex : g.memberIndexByVersion (g.memberVersion+1) = fun _ => 0 := h.unindexed _ (Nat.lt_succ_self _)
  have hindexed : Indexed (g.memberList.erase a) (setIndices (fun _ => 0) (g.memberList.erase a)) :=
    indexed_setIndices (h.nodup.erase a) (by omega)
  have hunindexed := hindexed.index_eq_zero (a := a) (List.Nodup.not_mem_erase h.nodup)
  rw [roster_removeMember h.toRoll hremove,hindex,update_eq_self_iff.mpr hunindexed.symm]
  refine h.next (by omega) (active_removeMember h.toRoll) ⟨fun b hb => ?_,?_,hindexed⟩ (herase ▸ hquorate)
  · exact (h.listed _ h.first_le le_rfl).nonzero b (mem_of_mem_erase hb)
  · rintro hempty
    have := hquorate.pos.trans hquorate.le
    rw [hempty,length_nil] at herase
    omega

lemma Roll.not_mem_memberList (h : Roll g.roster) (hnew : (g.members a).isActive=false) : a ∉ g.memberList :=
  fun hmem => Bool.false_ne_true (hnew.symm.trans ((h.active a).mpr hmem))

lemma Roll.changeMember (h : Roll g.roster) (hchange : g.changeMember msg a = .ok g') : Roll g'.roster := by
  obtain ⟨-,-,-,hnew,-,-⟩ := Base.changeMember_eq_ok hchange
  have ha := h.not_mem_memberList hnew
  rw [roster_changeMember hchange]
  exact h.rotate length_set (h.nodup.set ha) (active_changeMember h hchange)

lemma Members.changeMember (h : Members first g.roster) (hchange : g.changeMember msg a = .ok g') :
    Members first g'.roster := by
  obtain ⟨-,hzero,-,hnew,hmem,-⟩ := Base.changeMember_eq_ok hchange
  have hlisted := h.listed _ h.first_le le_rfl
  have ha := h.not_mem_memberList hnew
  rw [roster_changeMember hchange]
  refine h.rotate length_set (active_changeMember h.toRoll hchange) ⟨fun b hb => ?_,?_,?_⟩
  · rcases (mem_set_idxOf h.nodup hmem).mp hb with rfl | hb
    · exact hzero
    · exact hlisted.nonzero b hb.1
  · intro hempty
    rw [set_eq_nil_iff] at hempty
    exact hlisted.nonempty hempty
  · exact hlisted.indexed.replace hmem ha

lemma Roll.changeQuorum (h : Roll g.roster) (hchange : g.changeQuorum q = .ok g') : Roll g'.roster := by
  obtain ⟨hquorate,rfl⟩ := changeQuorum_eq_ok hchange
  exact ⟨h.length_le,h.above,h.nodup,h.active,fun _ => hquorate.le⟩

lemma Members.changeQuorum (h : Members first g.roster) (hchange : g.changeQuorum q = .ok g') :
    Members first g'.roster := by
  obtain ⟨hquorate,rfl⟩ := changeQuorum_eq_ok hchange
  exact ⟨h.toRoll.changeQuorum hchange,h.first_le,h.listed,h.unindexed,
    by simp [Base.roster,Base.snapshotQuorum],hquorate⟩

end

/-- The functions that change the members are the only ones that do. -/
structure RosterInvariant (κ : Type) (P : Roster → Prop) : Prop where
  addMember : ∀ {g g' : Base κ} {now a q}, P g.roster → g.addMember now a q = .ok g' →
    P (g'.snapshotQuorum q).roster
  removeMember : ∀ {g g' : Base κ} {a q}, P g.roster → g.removeMember a q = .ok g' →
    P (g'.snapshotQuorum q).roster
  changeQuorum : ∀ {g g' : Base κ} {q}, P g.roster → g.changeQuorum q = .ok g' → P g'.roster
  changeMember : ∀ {g g' : Base κ} {msg a}, P g.roster → g.changeMember msg a = .ok g' → P g'.roster

lemma rosterInvariant_roll : RosterInvariant κ Roll :=
  ⟨Roll.addMember,Roll.removeMember,Roll.changeQuorum,Roll.changeMember⟩

lemma rosterInvariant_members (first : ℕ) : RosterInvariant κ (Members first) :=
  ⟨Members.addMember,Members.removeMember,Members.changeQuorum,Members.changeMember⟩

namespace RosterInvariant
variable {P : Roster → Prop} {D : Derived κ ω σ} {now : ℕ} {s s' : Contract κ σ}

lemma act (hP : RosterInvariant κ P) (hact : Act D now s s') (h : P s.gov.roster) : P s'.gov.roster := by
  cases hact with
  | create | count | approved | close | call | resume => exact h
  | changeMember hgov => exact hP.changeMember h hgov

lemma executeInternalAction (hP : RosterInvariant κ P) {a : Option (Action κ)}
    (haction : s.executeInternalAction D msg (fun s => s) a = .ok (success,s')) (h : P s.gov.roster) :
    P s'.gov.roster := by
  cases executeInternalAction_performs haction with
  | none => exact h
  | addMember hgov => exact hP.addMember h hgov
  | removeMember hgov => exact hP.removeMember h hgov
  | changeQuorum hgov => exact hP.changeQuorum h hgov
  | changeMaxProposals hgov =>
    cases changeMaxProposals_eq_ok hgov
    exact h
  | custom => exact h

lemma conclude (hP : P s.gov.roster) {markFailedOnError : Bool}
    (h : s.conclude D now id markFailedOnError success = .ok s') : P s'.gov.roster := by
  unfold Contract.conclude at h
  split at h
  · obtain ⟨own,_,rfl⟩ := finalizeProposal_eq_ok h
    exact hP
  · split at h
    · obtain ⟨own,_,rfl⟩ := finalizeProposal_eq_ok h
      exact hP
    · cases h
      exact hP

lemma run (hP : RosterInvariant κ P) (hrun : Run D now s s') (h : P s.gov.roster) : P s'.gov.roster := by
  induction hrun with
  | refl => exact h
  | act _ hact ih => exact hP.act hact (ih h)
  | retire _ _ _ _ _ hfinal ih =>
    obtain ⟨own,_,rfl⟩ := finalizeProposal_eq_ok hfinal
    exact ih h
  | perform _ _ _ _ haction hconclude ih ihinner =>
    have hlocked := conclude (hP.executeInternalAction haction (ihinner (ih h))) hconclude
    exact hlocked

lemma runCalls (hP : RosterInvariant κ P) (calls : List (ℕ × Call ω)) (h : P s.gov.roster) :
    P (runCalls D calls s).gov.roster :=
  runCalls_induction (I := fun s => P s.gov.roster) (fun _ _ _ hrun h => hP.run hrun h) h

end RosterInvariant

def Base.active (g : Base κ) (a : Address) : Bool := (g.members a).isActive

namespace Base
variable {g g' : Base κ} {a : Address} {q now : ℕ}

lemma active_addMember (h : g.addMember now a q = .ok g') : g'.active = update g.active a true := by
  obtain ⟨-,-,-,-,rfl⟩ := addMember_eq_ok h
  exact funext fun b => apply_update (fun _ => Member.isActive) g.members a _ b

lemma active_removeMember (h : g.removeMember a q = .ok g') : g'.active = update g.active a false := by
  obtain ⟨-,-,rfl⟩ := removeMember_eq_ok h
  exact funext fun b => apply_update (fun _ => Member.isActive) g.members a _ b

lemma active_changeMember (h : g.changeMember msg a = .ok g') :
    g'.active = update (update g.active a true) msg.sender false := by
  obtain ⟨-,-,-,-,-,rfl⟩ := changeMember_eq_ok h
  funext b
  refine (apply_update (fun _ => Member.isActive) _ msg.sender _ b).trans ?_
  congr 1
  exact funext fun b => apply_update (fun _ => Member.isActive) g.members a _ b

end Base

/-- The members of a contract without proposals. -/
def Base.founded (members : List Address) (quorum : ℕ) : Base κ where
  proposalExpiry := 604800
  memberVersion := 1
  currentProposalId := 0
  reentrancyGuard := 0
  quorum := quorum
  members a := ⟨members.contains a,0⟩
  versionedMemberList := update (fun _ => []) 1 members
  proposals _ := .empty
  memberIndexByVersion := update (fun _ _ => 0) 1 (setIndices (fun _ => 0) members)
  quorumByVersion := update (fun _ => 0) 1 quorum
  proposalExecutionCount _ := 0
  memberActiveProposalCount _ := 0
  maxActiveProposalsPerMember := 3
  records := []
  history := .start

/-- Every function and hook of a derived contract keeps a property of its storage and the active members. -/
structure Derived.PreservesMembers (D : Derived κ ω σ) (I : (Address → Bool) → σ → Prop) : Prop where
  call : ∀ {o msg g own own' next}, D.call o msg g own = .ok (own',next) → I g.active own → I g.active own'
  resume : ∀ {o id msg g own own'}, D.resume o id msg g own = .ok own' → I g.active own → I g.active own'
  executeCustomAction : ∀ {msg g k own success own'},
    D.executeCustomAction msg g k own = .ok (success,own') → I g.active own → I g.active own'
  onMemberAdded : ∀ {g a active own own'}, D.onMemberAdded g a own = .ok own' → a≠0 → active a=false →
    I active own → I (update active a true) own'
  onMemberRemoved : ∀ {g a active own own'}, D.onMemberRemoved g a own = .ok own' → active a →
    I active own → I (update active a false) own'
  onMemberChanged : ∀ {g a b active own own'}, D.onMemberChanged g a b own = .ok own' → active a → b≠0 → a≠b →
    active b=false → I active own → I (update (update active b true) a false) own'
  onProposalFinalized : ∀ {g id own own'}, D.onProposalFinalized g id own = .ok own' → I g.active own → I g.active own'

namespace Derived.PreservesMembers
variable {D : Derived κ ω σ} {I : (Address → Bool) → σ → Prop} {now : ℕ} {s s' : Contract κ σ}

section
variable (hI : D.PreservesMembers I)
include hI

lemma act (hact : Act D now s s') (h : I s.gov.active s.own) : I s'.gov.active s'.own := by
  cases hact with
  | create | count | approved => exact h
  | close _ _ hown => exact hI.onProposalFinalized hown h
  | changeMember hgov hown =>
    obtain ⟨hactive,hzero,hne,hnew,-,-⟩ := Base.changeMember_eq_ok hgov
    rw [Base.active_changeMember hgov]
    exact hI.onMemberChanged hown hactive hzero hne hnew h
  | call hown => exact hI.call hown h
  | resume hown => exact hI.resume hown h

lemma finalizeProposal {st : ProposalStatus}
    (hfinal : s.finalizeProposal D now id st = .ok s') (h : I s.gov.active s.own) : I s'.gov.active s'.own := by
  obtain ⟨own,hown,rfl⟩ := finalizeProposal_eq_ok hfinal
  exact hI.onProposalFinalized hown h

lemma executeInternalAction {a : Option (Action κ)}
    (haction : s.executeInternalAction D msg (fun s => s) a = .ok (success,s')) (h : I s.gov.active s.own) :
    I s'.gov.active s'.own := by
  cases executeInternalAction_performs haction with
  | none => exact h
  | addMember hgov hown =>
    obtain ⟨hnew,hzero,-⟩ := Base.addMember_eq_ok hgov
    exact Base.active_addMember hgov ▸ hI.onMemberAdded hown hzero hnew h
  | removeMember hgov hown =>
    obtain ⟨hactive,-⟩ := Base.removeMember_eq_ok hgov
    exact Base.active_removeMember hgov ▸ hI.onMemberRemoved hown hactive h
  | changeQuorum hgov =>
    obtain ⟨-,rfl⟩ := changeQuorum_eq_ok hgov
    exact h
  | changeMaxProposals hgov =>
    cases changeMaxProposals_eq_ok hgov
    exact h
  | custom hown => exact hI.executeCustomAction hown h

lemma conclude {markFailedOnError : Bool}
    (hconclude : s.conclude D now id markFailedOnError success = .ok s') (h : I s.gov.active s.own) :
    I s'.gov.active s'.own := by
  unfold Contract.conclude at hconclude
  split at hconclude
  · exact hI.finalizeProposal hconclude h
  · split at hconclude
    · exact hI.finalizeProposal hconclude h
    · cases hconclude
      exact h

lemma run (hrun : Run D now s s') (h : I s.gov.active s.own) : I s'.gov.active s'.own := by
  induction hrun with
  | refl => exact h
  | act _ hact ih => exact hI.act hact (ih h)
  | retire _ _ _ _ _ hfinal ih =>
    have hlocked := hI.finalizeProposal hfinal (ih h)
    exact hlocked
  | perform _ _ _ _ haction hconclude ih ihinner =>
    have hlocked := hI.conclude hconclude (hI.executeInternalAction haction (ihinner (ih h)))
    exact hlocked

lemma runCalls (calls : List (ℕ × Call ω)) (h : I s.gov.active s.own) :
    I (runCalls D calls s).gov.active (runCalls D calls s).own :=
  runCalls_induction (I := fun s => I s.gov.active s.own) (fun _ _ _ hrun h => hI.run hrun h) h

end

end Derived.PreservesMembers

/-- Every function and hook of a derived contract keeps a property of its own storage. -/
abbrev Derived.Preserves (D : Derived κ ω σ) (I : σ → Prop) : Prop := D.PreservesMembers fun _ => I

section
open Genesis
variable {c : BaseConfig} {param : Params} {address : Address}

lemma roll_base (hc : c.Valid param) : Roll (c.base address : Base κ).roster := by
  cases hm : c.members with
  | none =>
    have hlist : ∀ v, (c.base address : Base κ).versionedMemberList v = [] := fun v =>
      BaseConfig.versionedMemberList_base_eq_nil fun m hm' => by cases hm.symm.trans hm'
    have hmember : (c.base address : Base κ).memberList = [] := hlist _
    refine ⟨fun v => (congrArg List.length (hlist v)).trans_le (by simp),fun v _ => hlist v,?_,fun a => ?_,
      fun h => absurd hmember h⟩
    · rw [memberList_roster,hmember]
      exact nodup_nil
    · refine (BaseConfig.isActive_base (κ := κ)).trans (iff_of_false ?_ ?_)
      · rintro ⟨m,hm',_⟩
        cases hm.symm.trans hm'
      · rw [memberList_roster,hmember]
        exact not_mem_nil
  | some m =>
    obtain ⟨hnodup,_,hlength,hquorum,_⟩ := hc.members m hm
    have hversion : (c.base address : Base κ).memberVersion = m.1 := BaseConfig.memberVersion_base hm
    have hlist : (c.base address : Base κ).versionedMemberList m.1=m.2 := BaseConfig.versionedMemberList_base hm
    have hother : ∀ v, m.1≠v → (c.base address : Base κ).versionedMemberList v = [] := fun v hv =>
      BaseConfig.versionedMemberList_base_eq_nil fun m' hm' => by
        cases hm.symm.trans hm'
        exact hv
    have hmember : (c.base address : Base κ).memberList = m.2 := by rw [Base.memberList,hversion,hlist]
    refine ⟨fun v => ?_,fun v hv => hother v ?_,?_,fun a => ?_,fun _ => ?_⟩
    · by_cases hv : m.1=v
      · subst hv
        exact (congrArg List.length hlist).trans_le hlength
      · exact (congrArg List.length (hother v hv)).trans_le (by simp)
    · exact Nat.ne_of_lt (hversion ▸ hv)
    · rwa [memberList_roster,hmember]
    · rw [memberList_roster,hmember]
      refine (BaseConfig.isActive_base (κ := κ)).trans ⟨?_,fun ha => ⟨m,hm,ha⟩⟩
      rintro ⟨m',hm',ha⟩
      cases hm.symm.trans hm'
      exact ha
    · rw [memberList_roster,hmember]
      exact (BaseConfig.quorum_base (κ := κ) (hquorum.trans hlength)).trans_le hquorum

lemma members_base (hc : c.Valid param) (hmembers : (param "members").isSome) (hquorum : (param "quorum").isSome) :
    Members (c.base address : Base κ).memberVersion (c.base address : Base κ).roster := by
  obtain ⟨m,hm⟩ := Option.isSome_iff_exists.mp (hc.members_isSome ▸ hmembers)
  obtain ⟨hnodup,hzero,hlength,hle,hreviewed⟩ := hc.members m hm
  have hpos := hc.quorum_isSome.mp hquorum
  have hversion : (c.base address : Base κ).memberVersion = m.1 := BaseConfig.memberVersion_base hm
  have hlist : (c.base address : Base κ).versionedMemberList m.1=m.2 := BaseConfig.versionedMemberList_base hm
  have hmember : (c.base address : Base κ).memberList = m.2 := by rw [Base.memberList,hversion,hlist]
  have hq : (c.base address : Base κ).quorum = c.quorum := BaseConfig.quorum_base (hle.trans hlength)
  have hquorate : Quorate c.quorum m.2.length := ⟨Nat.pos_of_ne_zero hpos,hle,hreviewed hpos⟩
  have hindexed : Indexed m.2 ((c.base address : Base κ).memberIndexByVersion m.1) := by
    refine ⟨hnodup,fun a i => ⟨fun h => ?_,BaseConfig.memberIndexByVersion_base hm hnodup hlength⟩⟩
    by_cases ha : a ∈ m.2
    · obtain ⟨j,hj⟩ := mem_iff_getElem?.mp ha
      rw [BaseConfig.memberIndexByVersion_base hm hnodup hlength hj] at h
      exact Nat.succ.inj h ▸ hj
    · rw [BaseConfig.memberIndexByVersion_base_of_notMem hm ha] at h
      omega
  have hlisted : Listed ((c.base address : Base κ).versionedMemberList m.1)
      ((c.base address : Base κ).memberIndexByVersion m.1) := by
    rw [hlist]
    refine ⟨hzero,fun hempty => ?_,hindexed⟩
    rw [hempty] at hle
    exact hpos (Nat.le_zero.mp hle)
  refine ⟨roll_base hc,le_rfl,fun v hfirst hv => ?_,fun v hv => ?_,?_,?_⟩
  · obtain rfl : m.1=v := hversion ▸ Nat.le_antisymm hfirst hv
    exact hlisted
  · have hv : m.1<v := hversion ▸ hv
    funext a
    exact BaseConfig.memberIndexByVersion_base_eq_zero (κ := κ) fun m' hm' => by
      cases hm.symm.trans hm'
      exact Nat.ne_of_lt hv
  · show (c.base address : Base κ).quorum =
      (c.base address : Base κ).quorumByVersion (c.base address : Base κ).memberVersion
    rw [hq,hversion,BaseConfig.quorumByVersion_base hm (hle.trans hlength)]
  · show Quorate (c.base address : Base κ).quorum (c.base address : Base κ).memberList.length
    rwa [hmember,hq]

/-- After every history of calls, the members are as described from the initial version on. -/
theorem members_runCalls (D : Derived κ ω σ) {address : Address} {param : Params} {states : List StateParam}
    (h : initializeBase address param = .ok states) (hmembers : (param "members").isSome)
    (hquorum : (param "quorum").isSome) (own : σ) (calls : List (ℕ × Call ω)) :
    Members (storageOf address states (.fixed 1))
      (runCalls D calls ⟨baseOfStorage (storageOf address states),own⟩).gov.roster := by
  obtain ⟨c,hc,rfl⟩ := initializeBase_eq_ok h
  exact (rosterInvariant_members _).runCalls calls (members_base hc hmembers hquorum)

end

/-- The hooks of `GovBase` itself, without any further function. -/
def Derived.default : Derived Empty Empty Unit where
  reenters := false
  call o _ _ _ := o.elim
  resume o _ _ _ _ := o.elim
  executeCustomAction _ _ _ own := .ok (false,own)
  onMemberAdded _ _ own := .ok own
  onMemberRemoved _ _ own := .ok own
  onMemberChanged _ _ _ own := .ok own
  onProposalFinalized _ _ own := .ok own

namespace ThreeMembers
open Genesis

def param (memberVersion : String) : Params
  | "members" => some "0x01, 0x02, 0x03"
  | "quorum" => some "2"
  | "expiry" => some "604800"
  | "memberVersion" => some memberVersion
  | _ => none

/-- The first member has a fourth one added, and the third one changes its address. -/
def calls : List (ℕ × Call Empty) :=
  [(10,.mk 1 (.proposeAddMember 4 3) []),(20,.mk 2 (.approveProposal 1) []),(30,.mk 3 (.changeMember 5) [])]

theorem members_calls : ∃ states, initializeBase 7 (param "1") = .ok states ∧
      Members 1 (runCalls Derived.default calls ⟨baseOfStorage (storageOf 7 states),()⟩).gov.roster ∧
      (runCalls Derived.default calls ⟨baseOfStorage (storageOf 7 states),()⟩).gov.memberList = [1,2,5,4] := by
  obtain ⟨states,hstates,h⟩ := exists_of_holds (x := initializeBase 7 (param "1"))
    (P := fun states => storageOf 7 states (.fixed 1)=1 &&
      (runCalls Derived.default calls ⟨baseOfStorage (storageOf 7 states),()⟩).gov.memberList = [1,2,5,4])
    (by decide +kernel)
  simp only [Bool.and_eq_true,decide_eq_true_eq] at h
  refine ⟨states,hstates,?_,h.2⟩
  have hmembers := members_runCalls Derived.default hstates rfl rfl () calls
  rwa [h.1] at hmembers

/-- A genesis may start at a later version: the ones before it list nobody. -/
theorem early_version_empty : ∃ states, initializeBase 7 (param "5") = .ok states ∧
      3 ≤ (baseOfStorage (storageOf 7 states) : Base Empty).memberVersion ∧
      (baseOfStorage (storageOf 7 states) : Base Empty).versionedMemberList 3 = [] := by
  obtain ⟨states,hstates,h⟩ := exists_of_holds (x := initializeBase 7 (param "5"))
    (P := fun states => 3 ≤ (baseOfStorage (storageOf 7 states) : Base Empty).memberVersion &&
      (baseOfStorage (storageOf 7 states) : Base Empty).versionedMemberList 3 = [])
    (by decide +kernel)
  simp only [Bool.and_eq_true,decide_eq_true_eq] at h
  exact ⟨states,hstates,h⟩

end ThreeMembers

end StableNet.Gov
