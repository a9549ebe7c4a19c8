import Elector.Json.Value

/-!
# What is printed can be read

A value that is spread over lines is read back as it is (`parse_pretty`), as long as its numbers are
numbers of the grammar and its strings may stand between quotes (`Value.Written`). The scanner finds
in what is printed just the tokens of the value (`Value.Written.spells`), whether a token is
complete or still under way at the end (`Scanner.Shows`), and the builder puts them together to the
value (`Value.Written.built`).
-/

namespace Elector.Json

open Text (hexValue? hexDigit hexValue?_hexDigit)

/-! ## Strings -/

/-- The three ways in which a character is written. -/
theorem escapeChar_cases (c : Char) :
    (∃ e, e ≠ 'u' ∧ shortEscape? e = some c ∧ escapeChar c = ['\\', e]) ∨
    (c.toNat < 32 ∧ escapeChar c =
      ['\\', 'u', '0', '0', hexDigit (c.toNat / 16), hexDigit (c.toNat % 16)]) ∨
    (c ≠ '"' ∧ c ≠ '\\' ∧ ¬ c < ' ' ∧ escapeChar c = [c]) := by
  rw [escapeChar]
  split
  · exact .inl ⟨'"', by decide, by simp [*, shortEscape?], rfl⟩
  split
  · exact .inl ⟨'\\', by decide, by simp [*, shortEscape?], rfl⟩
  split
  · exact .inl ⟨'b', by decide, by simp [*, shortEscape?], rfl⟩
  split
  · exact .inl ⟨'f', by decide, by simp [*, shortEscape?], rfl⟩
  split
  · exact .inl ⟨'n', by decide, by simp [*, shortEscape?], rfl⟩
  split
  · exact .inl ⟨'r', by decide, by simp [*, shortEscape?], rfl⟩
  split
  · exact .inl ⟨'t', by decide, by simp [*, shortEscape?], rfl⟩
  split
  · rename_i hcontrol
    exact .inr (.inl ⟨hcontrol, rfl⟩)
  · exact .inr (.inr ⟨‹_›, ‹_›, ‹_›, rfl⟩)

private theorem control_value {n : Nat} (h : n < 32) :
    hexValue? (hexDigit (n / 16)) = some (n / 16) ∧
      hexValue? (hexDigit (n % 16)) = some (n % 16) :=
  ⟨hexValue?_hexDigit _ (by omega), hexValue?_hexDigit _ (by omega)⟩

/-- An escaped character is one piece, which stands for the character by itself. -/
theorem pieces_escapeChar (c : Char) (rest : List Char) : ∃ p,
    pieces (escapeChar c ++ rest) = (pieces rest).map (p :: ·) ∧
      ∀ ps, joinPieces (p :: ps) = (joinPieces ps).map (c :: ·) := by
  obtain ⟨e, hu, he, hc⟩ | ⟨hcontrol, hc⟩ | ⟨-, hslash, -, hc⟩ := escapeChar_cases c
  · refine ⟨.char c, ?_, fun ps => rfl⟩
    rw [hc]
    cases h : pieces rest <;> simp [pieces, hu, he, h]
  · obtain ⟨hhigh, hlow⟩ := control_value hcontrol
    have hzero : hexValue? '0' = some 0 := rfl
    refine ⟨.unit c.toNat, ?_, fun ps => ?_⟩
    · rw [hc]
      cases h : pieces rest with
      | none => simp [pieces, hzero, hhigh, hlow, h]
      | some ps =>
        simp [pieces, hzero, hhigh, hlow, h]
        omega
    · have hhigh : isHighSurrogate c.toNat = false := by
        simp only [isHighSurrogate, Bool.and_eq_false_iff, decide_eq_false_iff_not]
        omega
      have hlow : isLowSurrogate c.toNat = false := by
        simp only [isLowSurrogate, Bool.and_eq_false_iff, decide_eq_false_iff_not]
        omega
      rw [joinPieces.eq_def]
      simp [hhigh, hlow]
  · refine ⟨.char c, ?_, fun ps => rfl⟩
    rw [hc]
    cases h : pieces rest <;> simp [pieces, hslash, h]

theorem unescape_escape (cs : List Char) : unescape (escape cs) = some cs := by
  have hpieces : ∃ ps, pieces (escape cs) = some ps ∧ joinPieces ps = some cs := by
    induction cs with
    | nil => exact ⟨[], rfl, rfl⟩
    | cons c cs ih =>
      obtain ⟨ps, hps, hjoin⟩ := ih
      obtain ⟨p, hp, hc⟩ := pieces_escapeChar c (escape cs)
      rw [escape] at hps hp
      refine ⟨p :: ps, ?_, ?_⟩
      · rw [escape, List.flatMap_cons, hp, hps, Option.map_some]
      · rw [hc, hjoin, Option.map_some]
  obtain ⟨ps, hps, hjoin⟩ := hpieces
  rw [unescape, hps, Option.bind_some, hjoin]

/-- What may stand between quotes: the scanner passes over it. -/
def Legible (raw : List Char) : Prop :=
  ∀ seen tokens, raw.foldlM Scanner.step ⟨.text seen, tokens⟩ =
    some ⟨.text (raw.reverse ++ seen), tokens⟩

theorem Legible.append {raw raw' : List Char} (h : Legible raw) (h' : Legible raw') :
    Legible (raw ++ raw') := by
  intro seen tokens
  rw [List.foldlM_append, h, Option.bind_eq_bind, Option.bind_some, h', List.reverse_append,
    List.append_assoc]

theorem legible_escapeChar (c : Char) : Legible (escapeChar c) := by
  intro seen tokens
  obtain ⟨e, hu, he, hc⟩ | ⟨hcontrol, hc⟩ | ⟨hquote, hslash, hspace, hc⟩ := escapeChar_cases c
  · rw [hc]
    simp [Scanner.step, hu, he]
  · obtain ⟨hhigh, hlow⟩ := control_value hcontrol
    have hzero : hexValue? '0' = some 0 := rfl
    rw [hc]
    simp [Scanner.step, hzero, hhigh, hlow]
  · rw [hc]
    simp [Scanner.step, hquote, hslash, hspace]

theorem legible_escape (cs : List Char) : Legible (escape cs) := by
  induction cs with
  | nil => exact fun seen tokens => rfl
  | cons c cs ih => exact (legible_escapeChar c).append ih

/-! ## Scanning -/

namespace Scanner

/-- The scanner has seen just these tokens, last first. The last one may still be under way. -/
inductive Shows : Scanner → List Token → Prop
  | between (seen : List Token) : Shows { tokens := seen } seen
  | bare {chars : List Char} {t : Token} (h : ofBare chars.reverse = some t) (seen : List Token) :
    Shows ⟨.bare chars, seen⟩ (t :: seen)

theorem Shows.finish {s : Scanner} {seen : List Token} (h : s.Shows seen) :
    s.finish = some seen.reverse := by
  cases h with
  | between => rfl
  | bare hbare => simp [Scanner.finish, hbare]

theorem Shows.step {s : Scanner} {seen : List Token} {c : Char} (h : s.Shows seen)
    (hc : endsBare c = true) : s.step c = some (start seen c) := by
  cases h with
  | between => rfl
  | bare hbare => simp [Scanner.step, hc, hbare]

end Scanner

/-- The characters are those of the tokens, complete at their end. -/
def Settles (cs : List Char) (ts : List Token) : Prop :=
  ∀ seen, cs.foldlM Scanner.step { tokens := seen } = some { tokens := ts.reverse ++ seen }

def Spells (cs : List Char) (ts : List Token) : Prop :=
  ∀ seen, ∃ s, cs.foldlM Scanner.step { tokens := seen } = some s ∧ s.Shows (ts.reverse ++ seen)

variable {cs ds : List Char} {ts us : List Token} {c d : Char} {t : Token}

theorem Settles.spells (h : Settles cs ts) : Spells cs ts :=
  fun seen => ⟨_, h seen, .between _⟩

theorem Settles.append (h : Settles cs ts) (h' : Settles ds us) :
    Settles (cs ++ ds) (ts ++ us) := by
  intro seen
  rw [List.foldlM_append, h, Option.bind_eq_bind, Option.bind_some, h', List.reverse_append,
    List.append_assoc]

theorem Settles.append_spells (h : Settles cs ts) (h' : Spells ds us) :
    Spells (cs ++ ds) (ts ++ us) := by
  intro seen
  rw [List.foldlM_append, h, Option.bind_eq_bind, Option.bind_some, List.reverse_append,
    List.append_assoc]
  exact h' _

/-- A token under way is complete with the next character that may end it. -/
theorem Spells.append_settles (h : Spells cs ts) (hd : Scanner.endsBare d = true)
    (h' : Settles (d :: ds) us) : Settles (cs ++ d :: ds) (ts ++ us) := by
  intro seen
  obtain ⟨s, hs, hshows⟩ := h seen
  have hrest := h' (ts.reverse ++ seen)
  rw [List.foldlM_cons, (Scanner.Shows.between _).step hd] at hrest
  rw [List.foldlM_append, hs, Option.bind_eq_bind, Option.bind_some, List.foldlM_cons,
    hshows.step hd, hrest, List.reverse_append, List.append_assoc]

theorem settles_punctuation (h : Scanner.punctuation? c = some t) : Settles [c] [t] := by
  have hblank : Scanner.isBlank c = false := by
    unfold Scanner.punctuation? at h
    split at h <;> simp_all [Scanner.isBlank]
  intro seen
  simp [Scanner.step, Scanner.start, hblank, h]

theorem settles_blank (h : Scanner.isBlank c = true) : Settles [c] [] := by
  intro seen
  simp [Scanner.step, Scanner.start, h]

theorem settles_newline (level : Nat) : Settles (newline level) [] := by
  have hspaces : ∀ n, Settles (List.replicate n ' ') [] := by
    intro n
    induction n with
    | zero => exact fun seen => rfl
    | succ n ih => exact (settles_blank (c := ' ') rfl).append ih
  exact (settles_blank (c := '\n') rfl).append (hspaces _)

theorem settles_quote {raw : List Char} (h : Legible raw) : Settles (quote raw) [.text raw] := by
  intro seen
  have hopen : Scanner.step { tokens := seen } '"' = some ⟨.text [], seen⟩ := rfl
  rw [quote, List.cons_append, List.foldlM_cons, hopen, Option.bind_eq_bind, Option.bind_some,
    List.foldlM_append, h, Option.bind_eq_bind, Option.bind_some]
  simp [Scanner.step]

theorem spells_bare (cs : List Char) (h : ofBare cs = some t) (hcs : cs ≠ [])
    (plain : cs.all (!Scanner.endsBare ·) = true) : Spells cs [t] := by
  have hbare : ∀ c ∈ cs, Scanner.endsBare c = false := by simpa using plain
  have hrun : ∀ ds : List Char, (∀ d ∈ ds, Scanner.endsBare d = false) → ∀ chars seen,
      ds.foldlM Scanner.step ⟨.bare chars, seen⟩ = some ⟨.bare (ds.reverse ++ chars), seen⟩ := by
    intro ds
    induction ds with
    | nil => exact fun _ _ _ => rfl
    | cons d ds ih =>
      intro hds chars seen
      rw [List.forall_mem_cons] at hds
      simp [Scanner.step, hds.1, ih hds.2]
  intro seen
  cases cs with
  | nil => exact absurd rfl hcs
  | cons c cs =>
    rw [List.forall_mem_cons] at hbare
    have hstart : Scanner.step { tokens := seen } c = some ⟨.bare [c], seen⟩ := by
      have hc := hbare.1
      simp only [Scanner.endsBare, Bool.or_eq_false_iff, Option.isSome_eq_false_iff,
        Option.isNone_iff_eq_none, decide_eq_false_iff_not] at hc
      simp [Scanner.step, Scanner.start, hc]
    refine ⟨⟨.bare (cs.reverse ++ [c]), seen⟩, ?_, ?_⟩
    · rw [List.foldlM_cons, hstart, Option.bind_eq_bind, Option.bind_some, hrun cs hbare.2]
    · exact .bare (by simpa using h) seen

theorem ofBare_number (h : isNumber cs = true) : ofBare cs = some (.number cs) := by
  have hnull : cs ≠ ['n', 'u', 'l', 'l'] := by
    rintro rfl
    exact absurd h (by decide)
  have htrue : cs ≠ ['t', 'r', 'u', 'e'] := by
    rintro rfl
    exact absurd h (by decide)
  have hfalse : cs ≠ ['f', 'a', 'l', 's', 'e'] := by
    rintro rfl
    exact absurd h (by decide)
  rw [ofBare, if_neg hnull, if_neg htrue, if_neg hfalse, if_pos h]

theorem isNumber_ne_nil (h : isNumber cs = true) : cs ≠ [] := by
  rintro rfl
  exact absurd h (by decide)

/-! ## Values -/

namespace Value

mutual

def tokens : Value → List Token
  | .null => [.null]
  | .bool b => [.bool b]
  | .number digits => [.number digits]
  | .text raw => [.text raw]
  | .array elements => .openArray :: elementTokens elements ++ [.closeArray]
  | .object members => .openObject :: memberTokens members ++ [.closeObject]

def elementTokens : List Value → List Token
  | [] => []
  | [v] => v.tokens
  | v :: vs => v.tokens ++ .comma :: elementTokens vs

def memberTokens : List (List Char × Value) → List Token
  | [] => []
  | [(k, v)] => .text k :: .colon :: v.tokens
  | (k, v) :: ms => .text k :: .colon :: v.tokens ++ .comma :: memberTokens ms

end

/-- The numbers of the value are numbers, and its strings may stand between quotes. -/
inductive Written : Value → Prop
  | null : Written .null
  | bool (b : Bool) : Written (.bool b)
  | number {digits : List Char} (h : isNumber digits = true)
    (hbare : ∀ c ∈ digits, Scanner.endsBare c = false) : Written (.number digits)
  | text {raw : List Char} (h : Legible raw) : Written (.text raw)
  | array {elements : List Value} (h : ∀ v ∈ elements, Written v) : Written (.array elements)
  | object {members : List (List Char × Value)} (hkey : ∀ m ∈ members, Legible m.1)
    (hvalue : ∀ m ∈ members, Written m.2) : Written (.object members)

theorem spells_prettyElements {vs : List Value} {level : Nat}
    (h : ∀ v ∈ vs, Spells (v.pretty level) v.tokens) :
    Spells (prettyElements level vs) (elementTokens vs) := by
  induction vs with
  | nil => exact fun seen => ⟨_, rfl, .between _⟩
  | cons v vs ih =>
    rw [List.forall_mem_cons] at h
    have hv := (settles_newline level).append_spells h.1
    cases vs with
    | nil => exact hv
    | cons w vs =>
      have hcomma := hv.append_settles rfl (settles_punctuation (c := ',') rfl)
      have hall := hcomma.append_spells (ih h.2)
      simpa [prettyElements, elementTokens] using hall

theorem spells_prettyMembers {ms : List (List Char × Value)} {level : Nat}
    (hkey : ∀ m ∈ ms, Legible m.1) (h : ∀ m ∈ ms, Spells (m.2.pretty level) m.2.tokens) :
    Spells (prettyMembers level ms) (memberTokens ms) := by
  induction ms with
  | nil => exact fun seen => ⟨_, rfl, .between _⟩
  | cons m ms ih =>
    rw [List.forall_mem_cons] at hkey h
    have hcolon : Settles [':', ' '] [.colon] :=
      (settles_punctuation (c := ':') rfl).append (settles_blank (c := ' ') rfl)
    have hm := (((settles_newline level).append (settles_quote hkey.1)).append hcolon).append_spells
      h.1
    cases ms with
    | nil => simpa [prettyMembers, memberTokens] using hm
    | cons m' ms =>
      have hcomma := hm.append_settles rfl (settles_punctuation (c := ',') rfl)
      have hall := hcomma.append_spells (ih hkey.2 h.2)
      simpa [prettyMembers, memberTokens] using hall

/-- What is printed of a value are the value's tokens. -/
theorem Written.spells {v : Value} (h : v.Written) (level : Nat) :
    Spells (v.pretty level) v.tokens := by
  induction h generalizing level with
  | null => exact spells_bare ['n', 'u', 'l', 'l'] rfl (by simp) rfl
  | bool b =>
    cases b with
    | true => exact spells_bare ['t', 'r', 'u', 'e'] rfl (by simp) rfl
    | false => exact spells_bare ['f', 'a', 'l', 's', 'e'] rfl (by simp) rfl
  | @number digits h hbare =>
    have plain : digits.all (!Scanner.endsBare ·) = true := by simpa using hbare
    exact spells_bare digits (ofBare_number h) (isNumber_ne_nil h) plain
  | text h => exact (settles_quote h).spells
  | @array elements h ih =>
    have hopen := settles_punctuation (c := '[') rfl
    cases elements with
    | nil => exact (hopen.append (settles_punctuation (c := ']') rfl)).spells
    | cons v vs =>
      have helements := hopen.append_spells (spells_prettyElements fun v hv => ih v hv (level + 1))
      have hclose := (settles_newline level).append (settles_punctuation (c := ']') rfl)
      have hall := (helements.append_settles rfl hclose).spells
      simpa [pretty, tokens, newline] using hall
  | @object members hkey hvalue ih =>
    have hopen := settles_punctuation (c := '{') rfl
    cases members with
    | nil => exact (hopen.append (settles_punctuation (c := '}') rfl)).spells
    | cons m ms =>
      have hmembers := hopen.append_spells
        (spells_prettyMembers hkey fun m hm => ih m hm (level + 1))
      have hclose := (settles_newline level).append (settles_punctuation (c := '}') rfl)
      have hall := (hmembers.append_settles rfl hclose).spells
      simpa [pretty, tokens, newline] using hall

end Value

/-! ## Building -/

namespace Builder

def Goes (b : Builder) (ts : List Token) (b' : Builder) : Prop := ts.foldlM step b = some b'

variable {b b' b'' : Builder}

theorem goes_cons (h : b.step t = some b') (h' : b'.Goes ts b'') : b.Goes (t :: ts) b'' := by
  rw [Goes, List.foldlM_cons, h]
  exact h'

theorem Goes.append (h : b.Goes ts b') (h' : b'.Goes us b'') : b.Goes (ts ++ us) b'' := by
  rw [Goes, List.foldlM_append, h]
  exact h'

theorem goes_element {stack : List Open} (h : (value (.array [] :: stack)).Goes (t :: ts) b)
    (ht : t ≠ .closeArray) : (element stack).Goes (t :: ts) b := by
  have hstep : (element stack).step t = (value (.array [] :: stack)).step t := by
    cases t with
    | closeArray => exact absurd rfl ht
    | _ => rfl
  rw [Goes, List.foldlM_cons, hstep, ← List.foldlM_cons]
  exact h

theorem goes_member {stack : List Open} {raw : List Char}
    (h : (key [] stack).Goes (.text raw :: ts) b) : (member stack).Goes (.text raw :: ts) b :=
  h

end Builder

namespace Value

open Builder

/-- The builder makes the value of the tokens, whatever is open around it. -/
def Built (v : Value) : Prop := ∀ stack, (value stack).Goes v.tokens (.after v stack)

theorem tokens_head (v : Value) : ∃ t ts, v.tokens = t :: ts ∧ t ≠ .closeArray := by
  cases v <;> exact ⟨_, _, rfl, by simp⟩

theorem goes_elements {v : Value} {vs : List Value} (done : List Value) (stack : List Open)
    (h : ∀ v' ∈ v :: vs, v'.Built) :
    (value (.array done :: stack)).Goes (elementTokens (v :: vs) ++ [.closeArray])
      (.after (.array (done.reverse ++ v :: vs)) stack) := by
  induction vs generalizing v done with
  | nil =>
    refine (h v (by simp) _).append (goes_cons rfl ?_)
    simp [Goes]
  | cons w vs ih =>
    rw [List.forall_mem_cons] at h
    have hcomma : step (.after v (.array done :: stack)) .comma =
      some (.value (.array (v :: done) :: stack)) := rfl
    have hall := (h.1 _).append (goes_cons hcomma (ih (v :: done) h.2))
    simpa [elementTokens] using hall

theorem goes_members {m : List Char × Value} {ms : List (List Char × Value)}
    (done : List (List Char × Value)) (stack : List Open) (h : ∀ m' ∈ m :: ms, m'.2.Built) :
    (key done stack).Goes (memberTokens (m :: ms) ++ [.closeObject])
      (.after (.object (done.reverse ++ m :: ms)) stack) := by
  have hmember : ∀ m' ∈ m :: ms, ∀ done, (key done stack).Goes
      (.text m'.1 :: .colon :: m'.2.tokens) (.after m'.2 (.object done m'.1 :: stack)) :=
    fun m' hm' done => goes_cons rfl (goes_cons rfl (h m' hm' _))
  induction ms generalizing m done with
  | nil =>
    refine (hmember m (by simp) done).append (goes_cons rfl ?_)
    simp [Goes]
  | cons m' ms ih =>
    rw [List.forall_mem_cons] at h hmember
    have hcomma : step (.after m.2 (.object done m.1 :: stack)) .comma =
      some (.key (m :: done) stack) := rfl
    have hall := (hmember.1 done).append (goes_cons hcomma (ih (m :: done) h.2 hmember.2))
    simpa [memberTokens] using hall

theorem Written.built {v : Value} (h : v.Written) : v.Built := by
  induction h with
  | @array elements h ih =>
    intro stack
    cases elements with
    | nil => rfl
    | cons v vs =>
      have hgoes := goes_elements [] stack ih
      obtain ⟨t, ts, htokens, ht⟩ := tokens_head v
      have hhead : ∃ ts', elementTokens (v :: vs) ++ [.closeArray] = t :: ts' := by
        cases vs <;> simp [elementTokens, htokens]
      obtain ⟨ts', hts'⟩ := hhead
      rw [hts'] at hgoes
      rw [tokens, List.cons_append, hts']
      exact goes_cons rfl (goes_element hgoes ht)
  | @object members hkey hvalue ih =>
    intro stack
    cases members with
    | nil => rfl
    | cons m ms =>
      have hgoes := goes_members [] stack ih
      have hhead : ∃ ts, memberTokens (m :: ms) ++ [.closeObject] = .text m.1 :: ts := by
        cases ms <;> simp [memberTokens]
      obtain ⟨ts, hts⟩ := hhead
      rw [hts] at hgoes
      rw [tokens, List.cons_append, hts]
      exact goes_cons rfl (goes_member hgoes)
  | _ => exact fun stack => rfl

/-- What is printed is read as it was. -/
theorem parse_pretty {v : Value} (h : v.Written) (level : Nat) :
    parse (String.ofList (v.pretty level)) = some v := by
  obtain ⟨s, hs, hshows⟩ := h.spells level []
  rw [parse, scan, String.toList_ofList, hs, Option.bind_some, hshows.finish, Option.bind_some,
    List.append_nil, List.reverse_reverse, ofTokens, h.built]

end Value

end Elector.Json
