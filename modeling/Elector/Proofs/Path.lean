import Mathlib.Data.String.Basic
import Elector.FileTree

/-!
# Where paths lead

A written path is taken apart at its separators (`splitOn_slash`), so a name that is joined to a
path adds one step to it (`steps_joinPath`). Making the folders along some steps leads where the
steps do, whatever else is in the tree (`place_makeFolders`). What is kept in two folders of
different names is therefore kept in two places (`place_makeShelf`).
-/

namespace Elector

/-! ## Taking paths apart -/

section Split

open String

theorem extract_middle (l m r : List Char) :
    Pos.Raw.extract (ofList (l ++ m ++ r)) ⟨utf8Len l⟩ ⟨utf8Len (l ++ m)⟩ = ofList m := by
  rw [utf8Len_append]
  exact extract_of_valid l m r

/-- Behind what has been split off (`l`) and the start of the next name (`m`), splitting goes on
over the rest, character by character. -/
theorem splitOnAux_slash (l m r : List Char) (acc : List String) :
    splitOnAux (ofList (l ++ m ++ r)) "/" ⟨utf8Len l⟩ ⟨utf8Len (l ++ m)⟩ 0 acc =
      acc.reverse ++ (List.splitOnPPrepend (· == '/') r m.reverse).map ofList := by
  induction r generalizing l m acc with
  | nil =>
    have hend := (atEnd_of_valid (l ++ m) []).mpr rfl
    rw [splitOnAux, if_pos hend, extract_middle]
    simp
  | cons c r ih =>
    have hinside : ¬ Pos.Raw.atEnd (ofList (l ++ m ++ c :: r)) ⟨utf8Len (l ++ m)⟩ = true := by
      rw [atEnd_of_valid]
      simp
    have hget := get_of_valid (l ++ m) (c :: r)
    have hnext := next_of_valid (l ++ m) c r
    have hslash : Pos.Raw.get "/" 0 = '/' := rfl
    have hlen : utf8Len (l ++ m ++ [c]) = utf8Len (l ++ m) + c.utf8Size := by
      rw [utf8Len_append, utf8Len_cons, utf8Len_nil, Nat.zero_add]
    have hwhole : l ++ m ++ [c] ++ r = l ++ m ++ c :: r := by simp
    rw [splitOnAux, if_neg hinside, hget, List.headD_cons, hslash,
      List.splitOnPPrepend_cons_eq_if]
    by_cases hc : c = '/'
    · subst hc
      have hdone : Pos.Raw.atEnd "/" (Pos.Raw.next "/" 0) = true := rfl
      have hback : (⟨utf8Len (l ++ m ++ ['/'])⟩ : Pos.Raw).unoffsetBy (Pos.Raw.next "/" 0) =
          ⟨utf8Len (l ++ m)⟩ := by
        rw [hlen]
        rfl
      have hrest := ih (l ++ m ++ ['/']) [] (ofList m :: acc)
      rw [List.append_nil, hwhole] at hrest
      rw [if_pos (beq_self_eq_true _), if_pos (beq_self_eq_true _), hnext, ← hlen]
      simp only [hdone, if_true, hback, extract_middle, hrest]
      simp
    · have hother : ¬ (c == '/') = true := by simpa using hc
      have hforth : Pos.Raw.next (ofList (l ++ m ++ c :: r))
          ((⟨utf8Len (l ++ m)⟩ : Pos.Raw).unoffsetBy 0) = ⟨utf8Len (l ++ m ++ [c])⟩ := by
        rw [hlen]
        exact hnext
      have hrest := ih l (m ++ [c]) acc
      rw [← List.append_assoc l m [c], hwhole] at hrest
      rw [if_neg hother, if_neg hother, hforth, hrest, List.reverse_append, List.reverse_singleton,
        List.singleton_append]

theorem splitOn_slash (path : String) :
    path.splitOn "/" = (path.toList.splitOn '/').map ofList := by
  have h := splitOnAux_slash [] [] path.toList []
  rw [List.append_nil, List.nil_append, ofList_toList] at h
  exact h

end Split

/-- A name that leads from a folder to what is in it. -/
structure Plain (name : String) : Prop where
  whole : '/' ∉ name.toList
  ne_empty : name ≠ ""
  ne_here : name ≠ "."
  ne_up : name ≠ ".."

variable {base name name' : String}

theorem splitOn_append_name {path : String} (cs : List Char) (h : '/' ∉ name.toList)
    (hpath : path.toList = cs ++ '/' :: name.toList) :
    path.splitOn "/" = (cs.splitOn '/').map String.ofList ++ [name] := by
  rw [splitOn_slash, hpath, List.splitOn_append_cons_self, List.splitOn_eq_singleton h,
    List.map_append, List.map_singleton, String.ofList_toList]

theorem splitOn_name (h : '/' ∉ name.toList) : name.splitOn "/" = [name] := by
  rw [splitOn_slash, List.splitOn_eq_singleton h, List.map_singleton, String.ofList_toList]

theorem joinPath_inj (h : joinPath base name = joinPath base name') : name = name' := by
  rw [joinPath, joinPath] at h
  split at h <;> simpa using h

namespace FileTree

variable {t : FileTree} {place final : Place}

theorem steps_joinPath (h : Plain name) :
    steps ((joinPath base name).splitOn "/") = steps (base.splitOn "/") ++ [name] := by
  have hname : steps [name] = [name] := by
    simp [steps, h.ne_empty, h.ne_here]
  have happend : ∀ names : List String, steps (names ++ [name]) = steps names ++ [name] := by
    intro names
    rw [steps, List.filter_append]
    exact congrArg _ hname
  rw [joinPath]
  split
  · rename_i hend
    rcases hend with rfl | hslash
    · rw [String.empty_append, splitOn_name h.whole, splitOn_name (by simp), hname]
      rfl
    · -- The separator is already there, with an empty name behind it that leads nowhere.
      obtain ⟨cs, hbase⟩ := List.getLast?_eq_some_iff.mp hslash
      have hempty : base.splitOn "/" = (cs.splitOn '/').map String.ofList ++ [""] :=
        splitOn_append_name cs (by simp) (by simpa using hbase)
      have hnowhere : ∀ names : List String, steps (names ++ [""]) = steps names := by
        intro names
        simp [steps]
      rw [splitOn_append_name cs h.whole (by simp [hbase]), hempty, happend, hnowhere]
  · rw [splitOn_append_name base.toList h.whole (by simp), happend, splitOn_slash]

theorem origin_joinPath (h : Plain name) : t.origin (joinPath base name) = t.origin base := by
  by_cases hbase : base = ""
  · subst hbase
    have hname : name.toList.head? ≠ some '/' := fun hhead => h.whole (List.mem_of_mem_head? hhead)
    rw [joinPath, if_pos (Or.inl rfl), String.empty_append, origin, origin, if_neg hname,
      if_neg (by simp)]
  · have hne : base.toList ≠ [] := fun hnil => hbase (String.toList_eq_nil_iff.mp hnil)
    have hhead : (joinPath base name).toList.head? = base.toList.head? := by
      rw [joinPath]
      split <;> simp [List.head?_append_of_ne_nil _ hne]
    rw [origin, origin, hhead]

/-! ## Following names -/

def follow (place : Place) : List String → Place
  | [] => place
  | name :: rest => follow (if name = ".." then place.dropLast else place ++ [name]) rest

theorem follow_append (place : Place) (names names' : List String) :
    follow place (names ++ names') = follow (follow place names) names' := by
  induction names generalizing place with
  | nil => rfl
  | cons name rest ih =>
    rw [List.cons_append, follow, follow]
    exact ih _

/-- Wherever folders can be made, they are made where the names lead. -/
theorem place_makeFolders {names : List String} (h : (t.makeFolders place names).2 = some final) :
    final = follow place names := by
  induction names generalizing t place with
  | nil => exact (Option.some.inj h).symm
  | cons name rest ih =>
    rw [makeFolders] at h
    rw [follow]
    split at h
    · rename_i hup
      rw [if_pos hup]
      exact ih h
    · rename_i hup
      rw [if_neg hup]
      dsimp only at h
      split at h
      · exact ih h
      · cases h
      · split at h
        · exact ih h
        · cases h

theorem plain_raft : Plain "raft" := ⟨by decide, by decide, by decide, by decide⟩

theorem plain_name (f : FileName) : Plain f.name := by
  cases f <;> exact ⟨by decide, by decide, by decide, by decide⟩

theorem steps_path (hname : Plain name) (f : FileName) :
    steps ((f.path (joinPath base name)).splitOn "/") =
      steps (base.splitOn "/") ++ [name, "raft", f.name] := by
  rw [FileName.path, shelfPath, steps_joinPath (plain_name f), steps_joinPath plain_raft,
    steps_joinPath hname]
  simp

/-- The shelf of a node that keeps its data in a folder called `name`. -/
theorem place_makeShelf (hname : Plain name)
    (h : (t.makeShelf (joinPath base name)).2 = some place) :
    place = follow (t.origin base) (steps (base.splitOn "/")) ++ [name, "raft"] := by
  simp only [makeShelf] at h
  by_cases hpath : isPath (shelfPath (joinPath base name)) = true
  · rw [if_pos hpath, shelfPath, origin_joinPath plain_raft, origin_joinPath hname,
      steps_joinPath plain_raft, steps_joinPath hname] at h
    rw [place_makeFolders h, follow_append, follow_append]
    simp [follow, hname.ne_up]
  · rw [if_neg hpath] at h
    cases h

end FileTree

end Elector
