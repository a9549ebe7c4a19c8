/-!
# Ascending sets and maps of numbers

Sets of node ids and maps keyed by ids or terms, kept as strictly ascending lists. Each set has one
representation, so equality of sets is equality of values (`IdSet.ext`).
-/

namespace Elector

/-! ## Sets -/

structure IdSet where
  toList : List Int32 := []
  ascending : toList.Pairwise (· < ·) := by simp
deriving DecidableEq, Repr

namespace IdSet

private def insertInto (x : Int32) : List Int32 → List Int32
  | [] => [x]
  | y :: ys => if x < y then x :: y :: ys else if x = y then y :: ys else y :: insertInto x ys

private theorem mem_insertInto (x z : Int32) (ys : List Int32) :
    z ∈ insertInto x ys ↔ z = x ∨ z ∈ ys := by
  induction ys with
  | nil => simp [insertInto]
  | cons y ys ih =>
    rw [insertInto]
    split
    · simp
    · split
      · simp_all
      · simp only [List.mem_cons, ih]
        grind

private theorem ascending_insertInto (x : Int32) {ys : List Int32}
    (h : ys.Pairwise (· < ·)) : (insertInto x ys).Pairwise (· < ·) := by
  induction ys with
  | nil => simp [insertInto]
  | cons y ys ih =>
    rw [List.pairwise_cons] at h
    rw [insertInto]
    split
    · rename_i hxy
      rw [List.pairwise_cons, List.pairwise_cons]
      refine ⟨fun z hz => ?_, h⟩
      rcases List.mem_cons.mp hz with rfl | hz
      · exact hxy
      · exact Int32.lt_trans hxy (h.1 z hz)
    · split
      · exact List.pairwise_cons.mpr h
      · rename_i hxy hne
        rw [List.pairwise_cons]
        refine ⟨fun z hz => ?_, ih h.2⟩
        rcases (mem_insertInto x z ys).mp hz with rfl | hz
        · grind
        · exact h.1 z hz

instance : Membership Int32 IdSet := ⟨fun s x => x ∈ s.toList⟩

instance (x : Int32) (s : IdSet) : Decidable (x ∈ s) :=
  inferInstanceAs (Decidable (x ∈ s.toList))

theorem mem_def {x : Int32} {s : IdSet} : x ∈ s ↔ x ∈ s.toList := Iff.rfl

def empty : IdSet := {}

def singleton (x : Int32) : IdSet := { toList := [x] }

def insert (s : IdSet) (x : Int32) : IdSet where
  toList := insertInto x s.toList
  ascending := ascending_insertInto x s.ascending

def erase (s : IdSet) (x : Int32) : IdSet where
  toList := s.toList.filter (· ≠ x)
  ascending := s.ascending.filter _

def size (s : IdSet) : Nat := s.toList.length

def ofList (xs : List Int32) : IdSet := xs.foldl insert empty

@[simp] theorem mem_insert {s : IdSet} {x z : Int32} : z ∈ s.insert x ↔ z = x ∨ z ∈ s :=
  mem_insertInto x z s.toList

@[simp] theorem mem_singleton {x z : Int32} : z ∈ singleton x ↔ z = x := List.mem_singleton

@[simp] theorem not_mem_empty {z : Int32} : ¬ z ∈ empty := List.not_mem_nil

@[simp] theorem mem_erase {s : IdSet} {x z : Int32} : z ∈ s.erase x ↔ z ∈ s ∧ z ≠ x := by
  simp [mem_def, erase]

private theorem mem_foldl_insert (xs : List Int32) (s : IdSet) (z : Int32) :
    z ∈ xs.foldl insert s ↔ z ∈ s ∨ z ∈ xs := by
  induction xs generalizing s with
  | nil => simp
  | cons x xs ih =>
    rw [List.foldl_cons, ih, mem_insert, List.mem_cons]
    grind

@[simp] theorem mem_ofList {xs : List Int32} {z : Int32} : z ∈ ofList xs ↔ z ∈ xs := by
  rw [ofList, mem_foldl_insert]
  simp

private theorem ascending_ext {xs ys : List Int32} (hx : xs.Pairwise (· < ·))
    (hy : ys.Pairwise (· < ·)) (h : ∀ z, z ∈ xs ↔ z ∈ ys) : xs = ys := by
  induction xs generalizing ys with
  | nil =>
    cases ys with
    | nil => rfl
    | cons y ys => exact absurd ((h y).mpr (by simp)) (by simp)
  | cons x xs ih =>
    cases ys with
    | nil => exact absurd ((h x).mp (by simp)) (by simp)
    | cons y ys =>
      rw [List.pairwise_cons] at hx hy
      have hxy : x = y := by
        rcases List.mem_cons.mp ((h x).mp (by simp)) with hxy | hmem
        · exact hxy
        · rcases List.mem_cons.mp ((h y).mpr (by simp)) with hyx | hmem'
          · exact hyx.symm
          · exact absurd (Int32.lt_trans (hy.1 x hmem) (hx.1 y hmem')) Int32.lt_irrefl
      subst hxy
      rw [ih hx.2 hy.2 fun z => ?_]
      have hz := h z
      rw [List.mem_cons, List.mem_cons] at hz
      constructor
      · intro hmem
        rcases hz.mp (Or.inr hmem) with rfl | hmem'
        · exact absurd (hx.1 z hmem) Int32.lt_irrefl
        · exact hmem'
      · intro hmem
        rcases hz.mpr (Or.inr hmem) with rfl | hmem'
        · exact absurd (hy.1 z hmem) Int32.lt_irrefl
        · exact hmem'

theorem ext {s t : IdSet} (h : ∀ z, z ∈ s ↔ z ∈ t) : s = t := by
  have heq := ascending_ext s.ascending t.ascending h
  cases s
  cases t
  simp only [IdSet.mk.injEq]
  exact heq

end IdSet

/-! ## Maps -/

structure IdMap (β : Type) where
  entries : List (Int32 × β) := []
  ascending : entries.Pairwise (·.1 < ·.1) := by simp
deriving DecidableEq, Repr

namespace IdMap

variable {β : Type}

private def insertInto (k : Int32) (v : β) : List (Int32 × β) → List (Int32 × β)
  | [] => [(k, v)]
  | e :: es =>
    if k < e.1 then (k, v) :: e :: es
    else if k = e.1 then (k, v) :: es
    else e :: insertInto k v es

private theorem key_insertInto {k : Int32} {v : β} {es : List (Int32 × β)} {e : Int32 × β}
    (h : e ∈ insertInto k v es) : e = (k, v) ∨ e ∈ es := by
  induction es with
  | nil => simpa [insertInto] using h
  | cons d es ih =>
    rw [insertInto] at h
    split at h
    · simpa using h
    · split at h
      · rcases List.mem_cons.mp h with h | h
        · exact Or.inl h
        · exact Or.inr (List.mem_cons_of_mem _ h)
      · rcases List.mem_cons.mp h with h | h
        · exact Or.inr (by simp [h])
        · rcases ih h with h | h
          · exact Or.inl h
          · exact Or.inr (List.mem_cons_of_mem _ h)

private theorem ascending_insertEntry (k : Int32) (v : β) {es : List (Int32 × β)}
    (h : es.Pairwise (·.1 < ·.1)) : (insertInto k v es).Pairwise (·.1 < ·.1) := by
  induction es with
  | nil => simp [insertInto]
  | cons d es ih =>
    rw [List.pairwise_cons] at h
    rw [insertInto]
    split
    · rename_i hkd
      rw [List.pairwise_cons, List.pairwise_cons]
      refine ⟨fun e he => ?_, h⟩
      rcases List.mem_cons.mp he with rfl | he
      · exact hkd
      · exact Int32.lt_trans hkd (h.1 e he)
    · split
      · rename_i hkd
        rw [List.pairwise_cons]
        exact ⟨fun e he => hkd ▸ h.1 e he, h.2⟩
      · rename_i hlt hne
        rw [List.pairwise_cons]
        refine ⟨fun e he => ?_, ih h.2⟩
        rcases key_insertInto he with rfl | he
        · grind
        · exact h.1 e he

def empty : IdMap β := {}

/-- Sets the value of `k`, replacing an earlier one. -/
def insert (m : IdMap β) (k : Int32) (v : β) : IdMap β where
  entries := insertInto k v m.entries
  ascending := ascending_insertEntry k v m.ascending

def find? (m : IdMap β) (k : Int32) : Option β :=
  (m.entries.find? (·.1 = k)).map (·.2)

def keys (m : IdMap β) : List Int32 := m.entries.map (·.1)

def filterKeys (m : IdMap β) (p : Int32 → Bool) : IdMap β where
  entries := m.entries.filter (p ·.1)
  ascending := m.ascending.filter _

/-- Later pairs replace earlier ones with the same key. -/
def ofList (es : List (Int32 × β)) : IdMap β := es.foldl (fun m e => m.insert e.1 e.2) empty

@[simp] theorem find?_empty (k : Int32) : (empty : IdMap β).find? k = none := rfl

private theorem find?_insertInto (k j : Int32) (v : β) (es : List (Int32 × β)) :
    ((insertInto k v es).find? (·.1 = j)).map (·.2)
      = if j = k then some v else (es.find? (·.1 = j)).map (·.2) := by
  induction es with
  | nil => simp only [insertInto, List.find?_cons, List.find?_nil]; grind
  | cons d es ih =>
    rw [insertInto]
    split
    · simp only [List.find?_cons]; grind
    · split
      · simp only [List.find?_cons]; grind
      · simp only [List.find?_cons]; grind

theorem find?_insert (m : IdMap β) (k j : Int32) (v : β) :
    (m.insert k v).find? j = if j = k then some v else m.find? j :=
  find?_insertInto k j v m.entries

theorem find?_filterKeys (m : IdMap β) (p : Int32 → Bool) (k : Int32) :
    (m.filterKeys p).find? k = if p k then m.find? k else none := by
  rw [find?, find?, filterKeys, List.find?_filter]
  split
  · rename_i hk
    congr 2
    funext e
    by_cases he : e.1 = k <;> simp [he, hk]
  · rename_i hk
    rw [List.find?_eq_none.mpr, Option.map_none]
    intro e _
    by_cases he : e.1 = k <;> simp [he, hk]

theorem mem_keys {m : IdMap β} {k : Int32} : k ∈ m.keys ↔ (m.find? k).isSome = true := by
  simp [keys, find?]

theorem mem_keys_ofList {es : List (Int32 × β)} {k : Int32} :
    k ∈ (ofList es).keys ↔ k ∈ es.map (·.1) := by
  have hfold : ∀ m : IdMap β, k ∈ (es.foldl (fun m e => m.insert e.1 e.2) m).keys ↔
      k ∈ es.map (·.1) ∨ k ∈ m.keys := by
    induction es with
    | nil => simp
    | cons e es ih =>
      intro m
      rw [List.foldl_cons, ih, List.map_cons, List.mem_cons, mem_keys, mem_keys, find?_insert]
      by_cases hk : k = e.1 <;> simp [hk]
  rw [ofList, hfold]
  simp [keys, empty]

/-! ### Listing a map and building it again -/

private theorem insertInto_last (k : Int32) (v : β) {es : List (Int32 × β)}
    (h : ∀ e ∈ es, e.1 < k) : insertInto k v es = es ++ [(k, v)] := by
  induction es with
  | nil => rfl
  | cons d es ih =>
    have hd : d.1 < k := h d (by simp)
    have hkd : ¬ k < d.1 := Int32.lt_asymm hd
    have hne : k ≠ d.1 := fun heq => Int32.lt_irrefl (heq ▸ hd)
    rw [insertInto, if_neg hkd, if_neg hne, ih fun e he => h e (by simp [he]), List.cons_append]

private theorem entries_foldl_insert (es : List (Int32 × β)) (m : IdMap β)
    (h : (m.entries ++ es).Pairwise (·.1 < ·.1)) :
    (es.foldl (fun m e => m.insert e.1 e.2) m).entries = m.entries ++ es := by
  induction es generalizing m with
  | nil => simp
  | cons e es ih =>
    have hlast : (m.insert e.1 e.2).entries = m.entries ++ [e] :=
      insertInto_last e.1 e.2 fun d hd => (List.pairwise_append.mp h).2.2 d hd e (by simp)
    have hsplit : m.entries ++ e :: es = (m.insert e.1 e.2).entries ++ es := by
      rw [hlast, List.append_assoc, List.singleton_append]
    rw [List.foldl_cons, ih _ (hsplit ▸ h), hsplit]

private theorem eq_of_entries {m m' : IdMap β} (h : m.entries = m'.entries) : m = m' := by
  cases m
  cases m'
  cases h
  rfl

theorem ofList_entries (m : IdMap β) : ofList m.entries = m :=
  eq_of_entries (entries_foldl_insert m.entries empty m.ascending)

private theorem length_le_of_ascending (es : List (Int32 × β)) (low : Int)
    (h : es.Pairwise (·.1 < ·.1)) (hlow : ∀ e ∈ es, low ≤ e.1.toInt) (hle : low ≤ 0x80000000) :
    (es.length : Int) ≤ 0x80000000 - low := by
  induction es generalizing low with
  | nil => simp; omega
  | cons e es ih =>
    rw [List.pairwise_cons] at h
    have he := hlow e (by simp)
    have hmax := e.1.toInt_lt
    have hrest := ih (e.1.toInt + 1) h.2
      (fun d hd => Int32.lt_iff_toInt_lt.mp (h.1 d hd)) (by omega)
    rw [List.length_cons]
    omega

theorem length_entries_le (m : IdMap β) : m.entries.length ≤ 0x100000000 := by
  have h := length_le_of_ascending m.entries (-0x80000000) m.ascending
    (fun e _ => e.1.le_toInt) (by decide)
  omega

end IdMap

end Elector
