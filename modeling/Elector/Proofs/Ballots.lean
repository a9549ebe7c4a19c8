import Elector.Ballots
import Elector.Proofs.Compact

/-!
# What ballots keep

Ballots move forward only. `Settled` says that the votes on record are of the current term, and
`Precedes` orders ballots by what came earlier. Casting a vote and reaching a term keep the first
and go forward in the second, so a vote of a term, once cast, stays the only one of its term
(`vote_unique`). The file format gives ballots back as they were (`ofContent_encode`).
-/

namespace Elector

theorem toInt_next {t : Term} (h : t ≠ Int32.maxValue) : (t + 1).toInt = t.toInt + 1 := by
  have hlow := t.le_toInt
  have hhigh := t.toInt_lt
  have hmax : Int32.maxValue.toInt = 2 ^ 31 - 1 := by decide
  have hne : t.toInt ≠ 2 ^ 31 - 1 := fun heq => h (Int32.toInt_inj.mp (heq.trans hmax.symm))
  have hone : (1 : Int32).toInt = 1 := by decide
  rw [Int32.toInt_add, hone, Int.bmod_eq_of_le (by omega) (by omega)]

theorem term_lt_next {t : Term} (h : t ≠ Int32.maxValue) : t < t + 1 := by
  rw [Int32.lt_iff_toInt_lt, toInt_next h]
  omega

namespace Ballots

def Settled (r : Ballots) : Prop := ∀ t c, r.vote? t = some c → t = r.term

/-- `r'` may come after `r`: it is of a later term, or of the same term and holds its vote. -/
def Precedes (r r' : Ballots) : Prop :=
  r.term < r'.term ∨ r.term = r'.term ∧ ∀ c, r.vote? r.term = some c → r'.vote? r.term = some c

variable {r r' r'' : Ballots} {t t' : Term} {c c' : NodeId}

theorem settled_empty : Settled {} := by
  intro t c h
  simp [vote?] at h

/-! ## The order of ballots -/

theorem Precedes.refl (r : Ballots) : Precedes r r := Or.inr ⟨rfl, fun _ h => h⟩

theorem Precedes.trans (h : Precedes r r') (h' : Precedes r' r'') : Precedes r r'' := by
  rcases h with h | ⟨heq, hvote⟩
  · rcases h' with h' | ⟨heq', _⟩
    · exact Or.inl (Int32.lt_trans h h')
    · exact Or.inl (heq' ▸ h)
  · rcases h' with h' | ⟨heq', hvote'⟩
    · exact Or.inl (heq ▸ h')
    · refine Or.inr ⟨heq.trans heq', fun c hc => ?_⟩
      rw [heq]
      exact hvote' c (heq ▸ hvote c hc)

theorem Precedes.term_le (h : Precedes r r') : r.term ≤ r'.term := by
  rcases h with h | ⟨heq, _⟩
  · exact Int32.le_of_lt h
  · exact Int32.le_of_eq heq

theorem Precedes.vote (h : Precedes r r') (hs : r.Settled) (hc : r.vote? t = some c) :
    t < r'.term ∨ t = r'.term ∧ r'.vote? t = some c := by
  have ht := hs t c hc
  subst ht
  rcases h with h | ⟨heq, hvote⟩
  · exact Or.inl h
  · exact Or.inr ⟨heq, hvote c hc⟩

theorem vote_unique (h : Precedes r r') (hs : r.Settled) (hs' : r'.Settled)
    (hc : r.vote? t = some c) (hc' : r'.vote? t = some c') : c = c' := by
  rcases h.vote hs hc with hlt | ⟨_, hkept⟩
  · exact absurd (hs' t c' hc' ▸ hlt) Int32.lt_irrefl
  · exact Option.some.inj (hkept.symm.trans hc')

/-- On the way from `r` to `r'` a vote for `c` in `t` is on record. -/
def Records (r : Ballots) (t : Term) (c : NodeId) (r' : Ballots) : Prop :=
  ∃ mid : Ballots, r.Precedes mid ∧ mid.Settled ∧ mid.vote? t = some c ∧ mid.Precedes r'

theorem Records.extend (h : Records r t c r') (h' : Precedes r' r'') : Records r t c r'' := by
  obtain ⟨mid, hbefore, hsettled, hvote, hafter⟩ := h
  exact ⟨mid, hbefore, hsettled, hvote, hafter.trans h'⟩

theorem Records.after (h' : Precedes r r') (h : Records r' t c r'') : Records r t c r'' := by
  obtain ⟨mid, hbefore, hsettled, hvote, hafter⟩ := h
  exact ⟨mid, h'.trans hbefore, hsettled, hvote, hafter⟩

/-- A vote that has been on record keeps its term from holding none again. -/
theorem Records.spent (h : Records r t c r') : t < r'.term ∨ r'.vote? t = some c := by
  obtain ⟨mid, _, hsettled, hvote, hafter⟩ := h
  exact (hafter.vote hsettled hvote).imp_right And.right

theorem Records.unique {s : Ballots} (h : Records r t c r') (hs : s.Settled)
    (hside : s.Precedes r ∨ r'.Precedes s) (hc' : s.vote? t = some c') : c = c' := by
  obtain ⟨mid, hbefore, hsettled, hvote, hafter⟩ := h
  rcases hside with hearlier | hlater
  · exact (vote_unique (hearlier.trans hbefore) hs hsettled hc' hvote).symm
  · exact vote_unique (hafter.trans hlater) hsettled hs hvote hc'

/-! ## Advancing -/

theorem vote_advance (r : Ballots) (t t' : Term) :
    (r.advance t).vote? t' = if t ≤ t' then r.vote? t' else none := by
  simp [vote?, advance, IdMap.find?_filterKeys]

/-! ## Casting a vote -/

theorem cast_eq_ok (h : r.cast t c = .ok r') :
    r.term ≤ t ∧ (r.vote? t = some c ∧ r' = r ∨
      r.vote? t = none ∧ r' = ({ r with votes := r.votes.insert t c } : Ballots).advance t) := by
  rw [cast] at h
  split at h
  · cases h
  · rename_i hlt
    refine ⟨Int32.not_lt.mp hlt, ?_⟩
    split at h
    · rename_i existing hvote
      split at h
      · rename_i heq
        cases h
        exact Or.inl ⟨heq ▸ hvote, rfl⟩
      · cases h
    · rename_i hvote
      cases h
      exact Or.inr ⟨hvote, rfl⟩

theorem vote_cast (h : r.cast t c = .ok r') : r'.vote? t = some c := by
  rcases (cast_eq_ok h).2 with ⟨hvote, rfl⟩ | ⟨_, rfl⟩
  · exact hvote
  · rw [vote_advance, if_pos (Int32.le_refl t), vote?, IdMap.find?_insert, if_pos rfl]

theorem vote_of_cast (h : r.cast t c = .ok r') (hc : r'.vote? t' = some c') :
    r.vote? t' = some c' ∨ t' = t ∧ c' = c := by
  rcases (cast_eq_ok h).2 with ⟨_, rfl⟩ | ⟨_, rfl⟩
  · exact Or.inl hc
  · rw [vote_advance] at hc
    split at hc
    · rw [vote?, IdMap.find?_insert] at hc
      split at hc
      · rename_i ht
        exact Or.inr ⟨ht, (Option.some.inj hc).symm⟩
      · exact Or.inl hc
    · cases hc

theorem term_cast (h : r.cast t c = .ok r') (hs : r.Settled) : r'.term = t := by
  rcases (cast_eq_ok h).2 with ⟨hvote, rfl⟩ | ⟨_, rfl⟩
  · exact (hs t c hvote).symm
  · rfl

theorem settled_cast (h : r.cast t c = .ok r') (hs : r.Settled) : r'.Settled := by
  intro t' c' hc'
  rw [term_cast h hs]
  rcases (cast_eq_ok h).2 with ⟨hvote, rfl⟩ | ⟨_, rfl⟩
  · rw [hs t' c' hc', hs t c hvote]
  · have hle := (cast_eq_ok h).1
    rcases vote_of_cast h hc' with hold | ⟨ht, _⟩
    · rw [vote_advance] at hc'
      split at hc'
      · rename_i htt'
        exact Int32.le_antisymm (hs t' c' hold ▸ hle) htt'
      · cases hc'
    · exact ht

theorem precedes_cast (h : r.cast t c = .ok r') (hs : r.Settled) : Precedes r r' := by
  have hterm := term_cast h hs
  rcases Int32.lt_or_eq_of_le (cast_eq_ok h).1 with hlt | heq
  · exact Or.inl (hterm ▸ hlt)
  · refine Or.inr ⟨heq.trans hterm.symm, fun c' hc' => ?_⟩
    rcases (cast_eq_ok h).2 with ⟨_, rfl⟩ | ⟨hnone, _⟩
    · exact hc'
    · rw [heq, hnone] at hc'
      cases hc'

/-! ## Reaching a term -/

theorem reach_eq_ok (h : r.reach t = .ok r') :
    t = r.term ∧ r' = r ∨ r.term < t ∧ r' = r.advance t := by
  rw [reach] at h
  split at h
  · cases h
  · rename_i hlt
    split at h
    · rename_i heq
      cases h
      exact Or.inl ⟨heq, rfl⟩
    · rename_i hne
      cases h
      exact Or.inr ⟨Int32.lt_of_le_of_ne (Int32.not_lt.mp hlt) (Ne.symm hne), rfl⟩

theorem term_reach (h : r.reach t = .ok r') : r'.term = t := by
  rcases reach_eq_ok h with ⟨rfl, rfl⟩ | ⟨_, rfl⟩
  · rfl
  · rfl

theorem vote_of_reach (h : r.reach t = .ok r') (hc : r'.vote? t' = some c') :
    r.vote? t' = some c' := by
  rcases reach_eq_ok h with ⟨_, rfl⟩ | ⟨_, rfl⟩
  · exact hc
  · rw [vote_advance] at hc
    split at hc
    · exact hc
    · cases hc

/-- What is on record for a term that has been reached was on record before. -/
theorem vote_reach (h : r.reach t = .ok r') : r'.vote? t = r.vote? t := by
  rcases reach_eq_ok h with ⟨_, rfl⟩ | ⟨_, rfl⟩
  · rfl
  · rw [vote_advance, if_pos (Int32.le_refl t)]

theorem settled_reach (h : r.reach t = .ok r') (hs : r.Settled) : r'.Settled := by
  intro t' c' hc'
  rcases reach_eq_ok h with ⟨_, rfl⟩ | ⟨hlt, rfl⟩
  · exact hs t' c' hc'
  · have hold := hs t' c' (vote_of_reach h hc')
    rw [vote_advance] at hc'
    split at hc'
    · rename_i hle
      exact absurd (Int32.lt_of_lt_of_le hlt (hold ▸ hle)) Int32.lt_irrefl
    · cases hc'

theorem precedes_reach (h : r.reach t = .ok r') : Precedes r r' := by
  rcases reach_eq_ok h with ⟨_, rfl⟩ | ⟨hlt, rfl⟩
  · exact Precedes.refl _
  · exact Or.inl hlt

theorem Settled.vote_newer (hs : r.Settled) (h : r.term < t) : r.vote? t = none := by
  cases hvote : r.vote? t with
  | none => rfl
  | some c => exact absurd (hs t c hvote ▸ h) Int32.lt_irrefl

/-! ## The file -/

theorem readVote_encodeVote (v : Term × NodeId) (rest : Bytes) :
    readVote (encodeVote v ++ rest) = .ok (v, rest) := by
  rw [readVote, encodeVote, List.append_assoc, Compact.word_encodeWord]
  simp only [Compact.word_encodeWord]

theorem read_encode (r : Ballots) (rest : Bytes) : read (r.encode ++ rest) = .ok (r, rest) := by
  have hlen : r.votes.entries.length < 2 ^ 64 :=
    Nat.lt_of_le_of_lt r.votes.length_entries_le (by decide)
  rw [read, encode, List.append_assoc, Compact.word_encodeWord]
  simp only [Compact.list_encodeList _ (fun v _ => readVote_encodeVote v) rest hlen,
    IdMap.ofList_entries]

theorem encode_ne_nil (r : Ballots) : r.encode ≠ [] := by
  rw [encode]
  exact List.append_ne_nil_of_left_ne_nil (Compact.encodeWord_ne_nil _) _

theorem ofContent_encode (r : Ballots) : ofContent r.encode = .ok r := by
  have hread := read_encode r []
  rw [List.append_nil] at hread
  rw [ofContent, if_neg r.encode_ne_nil, hread]

end Ballots

end Elector
