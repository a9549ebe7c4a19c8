import Elector.Proofs.Documents
import Elector.Proofs.Election
import Elector.Proofs.Joining
import Elector.Proofs.Path

/-!
# Members of one cluster

Every member makes out its own view of the cluster from the same settings: all nodes but itself, by
id, and then itself again. These views have the same members, the listed ids, whatever is listed
twice (`mem_members`), so that they agree on what a quorum is. The folders of two members have two
names (`folder_injective`), and so nothing that one of them keeps is ever where the other looks for
it (`places_ne`). `members_agree` puts this together.
-/

namespace Elector

theorem Timing.check_eq_ok {t : Timing} :
    t.check = .ok () ↔
      0 < t.heartbeat ∧ t.heartbeat < t.electionMin ∧ t.electionMin ≤ t.electionMax := by
  simp only [check, UInt64.lt_iff_toNat_lt, UInt64.le_iff_toNat_le, ← UInt64.toNat_inj,
    UInt64.toNat_zero]
  split
  · exact iff_of_false (by simp) (by omega)
  · split
    · exact iff_of_false (by simp) (by omega)
    · split
      · exact iff_of_false (by simp) (by omega)
      · exact iff_of_true rfl (by omega)

namespace ClusterSettings

variable {settings : ClusterSettings} {a b id v : NodeId} {node : NodeSettings}

/-! ## Views -/

theorem forNode_listed (listed : id ∈ settings.ids) :
    settings.forNode id = settings.timing.check.map fun _ => settings.member id := by
  rw [forNode, if_pos listed]
  cases settings.timing.check <;> rfl

theorem mem_members (listed : id ∈ settings.ids) :
    v ∈ (settings.member id).roster.members ↔ v ∈ settings.ids := by
  by_cases hself : v = id
  · subst hself
    exact iff_of_true (settings.member v).roster.self_mem listed
  · have hpeer : v ∈ (settings.member id).roster.peers ↔
        v ∈ (settings.member id).roster.members ∧ v ≠ id := Roster.mem_peers
    simpa [hself] using hpeer.symm.trans peers_member

theorem members_eq (ha : a ∈ settings.ids) (hb : b ∈ settings.ids) :
    (settings.member a).roster.members = (settings.member b).roster.members :=
  IdSet.ext fun _ => (mem_members ha).trans (mem_members hb).symm

/-! ## Folders -/

def folder (id : NodeId) : String := s!"node-{id}"

theorem folder_eq (id : NodeId) : folder id = "node-" ++ id.toInt.repr := rfl

theorem folder_injective (h : folder a = folder b) : a = b := by
  rw [folder_eq, folder_eq, String.append_right_inj] at h
  -- the id is read back from its digits, as in a document
  have hread := Json.Value.int32?_ofInt a
  rw [Json.Value.ofInt_eq_number, h, ← Json.Value.ofInt_eq_number, Json.Value.int32?_ofInt] at hread
  exact (Option.some.inj hread).symm

theorem eq_of_append_folder {front rest rest' : List String}
    (h : front ++ folder a :: rest = front ++ folder b :: rest') : a = b :=
  folder_injective (List.cons.inj (List.append_cancel_left h)).1

theorem slash_not_mem_repr (i : Int) : '/' ∉ i.repr.toList := by
  have hdigits : ∀ n : Nat, '/' ∉ n.repr.toList := by
    intro n hmem
    rw [Nat.toList_repr] at hmem
    exact absurd (Nat.isDigit_of_mem_toDigits (by decide) (by decide) hmem) (by decide)
  rw [Int.repr_eq_if]
  split
  · exact hdigits _
  · rw [String.toList_append, List.mem_append, not_or]
    exact ⟨by decide, hdigits _⟩

theorem plain_folder (id : NodeId) : Plain (folder id) := by
  have hlist : (folder id).toList = "node-".toList ++ id.toInt.repr.toList := by
    rw [folder_eq, String.toList_append]
  have hne : ∀ name : String, name.toList.head? ≠ some 'n' → folder id ≠ name := by
    rintro name hhead rfl
    exact hhead (by rw [hlist]; rfl)
  refine ⟨?_, hne _ (by decide), hne _ (by decide), hne _ (by decide)⟩
  rw [hlist, List.mem_append, not_or]
  exact ⟨by decide, slash_not_mem_repr _⟩

theorem dataDir_ne (hne : a ≠ b) : (settings.member a).dataDir ≠ (settings.member b).dataDir :=
  fun heq => hne (folder_injective (joinPath_inj heq))

theorem path_ne (hne : a ≠ b) (f : FileName) :
    f.path (settings.member a).dataDir ≠ f.path (settings.member b).dataDir := by
  have hsteps : ∀ id, FileTree.steps ((f.path (settings.member id).dataDir).splitOn "/") =
      FileTree.steps (settings.dataDir.splitOn "/") ++ [folder id, "raft", f.name] :=
    fun id => FileTree.steps_path (plain_folder id) f
  intro heq
  have hsame := hsteps b
  rw [← heq, hsteps a] at hsame
  exact hne (eq_of_append_folder hsame)

/-- In any two states of a file tree, no file of one member is where a file of another one is. -/
theorem places_ne {t t' : FileTree} {place place' : Place} (hne : a ≠ b) (home : t.home = t'.home)
    (h : (t.makeShelf (settings.member a).dataDir).2 = some place)
    (h' : (t'.makeShelf (settings.member b).dataDir).2 = some place') (f g : FileName) :
    place ++ [f.name] ≠ place' ++ [g.name] := by
  rw [FileTree.place_makeShelf (plain_folder a) h, FileTree.place_makeShelf (plain_folder b) h']
  have horigin : t.origin settings.dataDir = t'.origin settings.dataDir := by
    rw [FileTree.origin, FileTree.origin, home]
  rw [horigin]
  simp only [List.append_assoc]
  exact fun heq => hne (eq_of_append_folder heq)

/-! ## Agreement -/

/-- All members make the same of one description of their cluster, whatever it lists. A node gets
its settings exactly if it is listed and the times are in order, so that the members all get theirs
or are all refused for the same reason. If they get them, they have the same members, the listed
ones, and the same quorum, of which any two sets that reach it have a member in common, and they
wait the same times; but different members keep their data in different folders, so that the vote
file of one is never the vote file of another. -/
theorem members_agree (settings : ClusterSettings) :
    (∀ id, (∃ node, settings.forNode id = .ok node) ↔
      id ∈ settings.ids ∧ 0 < settings.timing.heartbeat ∧
        settings.timing.heartbeat < settings.timing.electionMin ∧
        settings.timing.electionMin ≤ settings.timing.electionMax) ∧
    (∀ a ∈ settings.ids, ∀ b ∈ settings.ids,
      ((∃ node, settings.forNode a = .ok node) ↔ ∃ node, settings.forNode b = .ok node) ∧
      ∀ e, settings.forNode a = .error e ↔ settings.forNode b = .error e) ∧
    ∀ a b : NodeId, ∀ node node' : NodeSettings,
      settings.forNode a = .ok node → settings.forNode b = .ok node' →
      (∀ v, v ∈ node.roster.members ↔ v ∈ settings.ids) ∧
      node.roster.members = node'.roster.members ∧ node.roster.quorum = node'.roster.quorum ∧
      (∀ s s' : IdSet, (∀ v ∈ s, v ∈ node.roster.members) → (∀ v ∈ s', v ∈ node.roster.members) →
        node.roster.quorum ≤ s.size → node.roster.quorum ≤ s'.size → ∃ v ∈ s, v ∈ s') ∧
      node.timing = node'.timing ∧
      (a ≠ b → node.dataDir ≠ node'.dataDir ∧
        FileName.votes.path node.dataDir ≠ FileName.votes.path node'.dataDir ∧
        ∀ t t' : FileTree, t.home = t'.home → ∀ place place',
          (t.makeShelf node.dataDir).2 = some place →
          (t'.makeShelf node'.dataDir).2 = some place' →
          place ++ [FileName.votes.name] ≠ place' ++ [FileName.votes.name]) := by
  refine ⟨fun id => ?_, fun a ha b hb => ?_, ?_⟩
  · simp only [forNode_eq_ok, ← Timing.check_eq_ok]
    constructor
    · rintro ⟨_, listed, accepted, _⟩
      exact ⟨listed, accepted⟩
    · rintro ⟨listed, accepted⟩
      exact ⟨_, listed, accepted, rfl⟩
  · rw [forNode_listed ha, forNode_listed hb]
    cases settings.timing.check <;> simp [Except.map]
  · intro a b node node' hnode hnode'
    obtain ⟨ha, _, rfl⟩ := forNode_eq_ok.mp hnode
    obtain ⟨hb, _, rfl⟩ := forNode_eq_ok.mp hnode'
    have hsame := members_eq ha hb
    have hquorum : (settings.member a).roster.quorum = (settings.member b).roster.quorum := by
      rw [Roster.quorum, Roster.quorum, Roster.size, Roster.size, hsame]
    refine ⟨fun v => mem_members ha, hsame, hquorum, fun s s' hs hs' => ?_, rfl, fun hne => ?_⟩
    · exact IdSet.exists_mem_of_quorums hs hs'
    · exact ⟨dataDir_ne hne, path_ne hne .votes,
        fun t t' home place place' h h' => places_ne hne home h h' .votes .votes⟩

/-! A cluster that lists one of its two members twice, and both at one address. -/

def repetitive : ClusterSettings where
  nodes := [⟨1, "here"⟩, ⟨-1, "here"⟩, ⟨1, "there"⟩]
  dataDir := "data/"

theorem members_agree_repetitive :
    ∃ node node', repetitive.forNode 1 = .ok node ∧ repetitive.forNode (-1) = .ok node' ∧
      node.roster.members = node'.roster.members ∧ node.roster.quorum = node'.roster.quorum ∧
      node.dataDir = "data/node-1" ∧ node'.dataDir = "data/node--1" ∧
      ∀ t place place', (FileTree.makeShelf t "data/node-1").2 = some place →
        (FileTree.makeShelf t "data/node--1").2 = some place' →
        place ++ ["vote.bin"] ≠ place' ++ ["vote.bin"] := by
  obtain ⟨hgets, _, hagree⟩ := members_agree repetitive
  obtain ⟨node, hnode⟩ := (hgets 1).mpr (by decide)
  obtain ⟨node', hnode'⟩ := (hgets (-1)).mpr (by decide)
  obtain ⟨_, hmembers, hquorum, _, _, hapart⟩ := hagree 1 (-1) node node' hnode hnode'
  obtain ⟨_, _, rfl⟩ := forNode_eq_ok.mp hnode
  obtain ⟨_, _, rfl⟩ := forNode_eq_ok.mp hnode'
  refine ⟨_, _, hnode, hnode', hmembers, hquorum, by decide, by decide, ?_⟩
  intro t place place' h h'
  exact (hapart (by decide)).2.2 t t rfl place place' h h'

end ClusterSettings

end Elector
