/-!
# Cuts

A piece of a text between two byte offsets of its UTF-8 form. There is one exactly where the text
falls apart at both (`cut?_eq_some_iff`), which it never does inside a character. A text of one-byte
characters falls apart everywhere (`cut?_ofList`).
-/

namespace Elector.Text

/-- The piece from one byte offset to another; none where an offset lies past the end or inside a
character, or where the second comes first. -/
def cut? (text : String) (start stop : Nat) : Option String :=
  if h : String.Pos.Raw.IsValid text ⟨start⟩ ∧ String.Pos.Raw.IsValid text ⟨stop⟩ ∧
      start ≤ stop then
    some (text.slice (text.pos ⟨start⟩ h.1) (text.pos ⟨stop⟩ h.2.1) h.2.2).copy
  else none

theorem cut?_eq_some_iff {text piece : String} {start stop : Nat} :
    cut? text start stop = some piece ↔
      ∃ before after, text = before ++ piece ++ after ∧ start = before.utf8ByteSize ∧
        stop = (before ++ piece).utf8ByteSize := by
  constructor
  · intro h
    rw [cut?] at h
    split at h
    next hcut =>
      obtain ⟨before, after, hstart, hstop⟩ :=
        String.copy_slice_eq_iff_splits.1 ⟨hcut.2.2, Option.some.inj h⟩
      exact ⟨before, after, hstop.eq_append,
        congrArg String.Pos.Raw.byteIdx hstart.offset_eq_rawEndPos,
        congrArg String.Pos.Raw.byteIdx hstop.offset_eq_rawEndPos⟩
    next => nomatch h
  · rintro ⟨before, after, rfl, rfl, rfl⟩
    have hstart : String.Pos.Raw.IsValid (before ++ piece ++ after) ⟨before.utf8ByteSize⟩ :=
      String.Pos.Raw.isValid_iff_exists_append.2
        ⟨before, piece ++ after, String.append_assoc .., rfl⟩
    have hstop : String.Pos.Raw.IsValid (before ++ piece ++ after)
        ⟨(before ++ piece).utf8ByteSize⟩ :=
      String.Pos.Raw.isValid_iff_exists_append.2 ⟨before ++ piece, after, rfl, rfl⟩
    have hle : before.utf8ByteSize ≤ (before ++ piece).utf8ByteSize := by
      rw [String.utf8ByteSize_append]
      omega
    have hpiece : ∃ h : (before ++ piece ++ after).pos _ hstart ≤
          (before ++ piece ++ after).pos _ hstop,
        ((before ++ piece ++ after).slice _ _ h).copy = piece :=
      String.copy_slice_eq_iff_splits.2
        ⟨before, after, ⟨String.append_assoc .., rfl⟩, ⟨rfl, rfl⟩⟩
    rw [cut?, dif_pos ⟨hstart, hstop, hle⟩, hpiece.2]

example : cut? "é0" 0 2 = some "é" ∧ cut? "é0" 1 3 = none ∧ cut? "é0" 2 4 = none := by decide

/-! ## Texts of one-byte characters -/

variable {cs : List Char}

theorem utf8ByteSize_ofList (hone : ∀ c ∈ cs, c.utf8Size = 1) :
    (String.ofList cs).utf8ByteSize = cs.length := by
  induction cs with
  | nil => rfl
  | cons c cs ih =>
    rw [String.ofList_cons, String.utf8ByteSize_append, String.utf8ByteSize_singleton,
      hone c List.mem_cons_self, ih fun d hd => hone d (List.mem_cons_of_mem c hd),
      List.length_cons]
    omega

theorem cut?_ofList {start stop : Nat} (hone : ∀ c ∈ cs, c.utf8Size = 1) (hle : start ≤ stop)
    (hstop : stop ≤ cs.length) :
    cut? (String.ofList cs) start stop = some (String.ofList ((cs.take stop).drop start)) := by
  have hsize : ∀ n ≤ cs.length, (String.ofList (cs.take n)).utf8ByteSize = n := fun n hn => by
    rw [utf8ByteSize_ofList fun c hc => hone c (List.mem_of_mem_take hc), List.length_take]
    omega
  have hfront : cs.take start ++ (cs.take stop).drop start = cs.take stop := by
    calc cs.take start ++ (cs.take stop).drop start
        = (cs.take stop).take start ++ (cs.take stop).drop start := by
          rw [List.take_take, Nat.min_eq_left hle]
      _ = cs.take stop := List.take_append_drop ..
  refine cut?_eq_some_iff.2 ⟨String.ofList (cs.take start), String.ofList (cs.drop stop), ?_,
    (hsize start (by omega)).symm, ?_⟩
  · rw [← String.ofList_append, hfront, ← String.ofList_append, List.take_append_drop]
  · rw [← String.ofList_append, hfront, hsize stop hstop]

end Elector.Text
