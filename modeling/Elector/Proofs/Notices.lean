import Mathlib.Data.List.Chain
import Mathlib.Data.List.Induction
import Elector.Proofs.Aftermath
import Elector.Proofs.Allegiance
import Elector.Proofs.Origin

/-!
# What a node says about its lead

A node gives notice when it takes the lead of a term, and when it loses it to a newer one. As long
as no notice is lost, whoever listens knows at every moment whether the node leads, and which term.
One kind of call loses a notice: a leader that has stepped down for a candidate of a newer term, and
then fails to decide on the candidate's vote, has its outputs thrown away with the notice among them
(`Lapses`). `notices_mirror_the_lead` says that nothing else does.
-/

namespace Elector

inductive Notice
  | took (term : Term)
  | lost (term : Term)
deriving DecidableEq, Repr

namespace Notice

def term : Notice → Term
  | took term => term
  | lost term => term

def isTook : Notice → Bool
  | took _ => true
  | lost _ => false

structure Alternate (heard : List Notice) : Prop where
  first : ∀ x ∈ heard.head?, x.isTook = true
  next : heard.IsChain fun x y => x.isTook ≠ y.isTook

end Notice

def Output.notice? : Output → Option Notice
  | .becameLeader term => some (.took term)
  | .steppedDown term => some (.lost term)
  | _ => none

namespace Node

def notices (outputs : List Output) : List Notice := outputs.filterMap Output.notice?

def told (n : Node) (c : Call) : List Notice := notices ((n.under c.outage).asks c.event)

def heard (n : Node) : List Call → List Notice
  | [] => []
  | c :: rest => n.told c ++ (n.call c).1.heard rest

/-- The call fails, and costs the node its lead. -/
def Lapses (n : Node) (c : Call) : Prop :=
  n.isLeader = true ∧ (n.call c).1.isLeader = false ∧ ∃ cause, (n.call c).2 = .error cause

def Unlapsed (n : Node) (calls : List Call) : Prop :=
  ∀ done c, done ++ [c] <+: calls → ¬ (n.afterCalls done).Lapses c

/-- Whoever has heard the notices knows whether the node leads, and which term. -/
def Mirrors (n : Node) (heard : List Notice) : Prop :=
  ∀ t, n.Leads t ↔ heard.getLast? = some (.took t)

/-- What the notices of one call have to do with the lead. -/
structure Tells (n : Node) (c : Call) : Prop where
  taken : n.isLeader = false → (n.call c).1.isLeader = true →
    n.told c = [.took (n.call c).1.term]
  lost : n.isLeader = true → (n.call c).1.isLeader = false →
    n.told c = [.lost (n.call c).1.term] ∨ n.Lapses c ∧ n.told c = []
  kept : (n.call c).1.isLeader = n.isLeader → n.told c = []
  /-- A call lapses only as it answers the candidate of a newer term, and leaves the node in that
  term. -/
  lapse : n.Lapses c → ∃ r, c.event = .message (.voteRequest r) ∧ r.candidate ∈ n.roster.peers ∧
    n.term < r.term ∧ n.Arrived r.term (n.call c).1

/-- How a change of the lead goes together with the notices that are given. -/
inductive Notifies (n n' : Node) : List Notice → Prop
  | silent (same : ∀ t, n'.Leads t ↔ n.Leads t) : Notifies n n' []
  | took (waits : n.isLeader = false) (leads : n'.isLeader = true)
      (later : ∀ t, n.SettledFor t → t < n'.term) : Notifies n n' [.took n'.term]
  | lost (led : n.isLeader = true) (role : n'.role = .follower) (newer : n.term < n'.term) :
      Notifies n n' [.lost n'.term]

variable {e : Event} {n n' mid : Node} {outputs before after : List Output} {m : Message} {t : Term}
  {c : Call} {calls done : List Call} {said heard : List Notice}

/-! ## Notices among outputs -/

@[simp] theorem notices_append (before after : List Output) :
    notices (before ++ after) = notices before ++ notices after := List.filterMap_append

@[simp] theorem notices_toPeers (n : Node) (m : Message) : notices (n.toPeers m) = [] := by
  unfold notices toPeers
  rw [List.filterMap_map, List.filterMap_eq_nil_iff]
  intro target _
  rfl

@[simp] theorem notices_heartbeats (n : Node) : notices n.heartbeats = [] := notices_toPeers n _

@[simp] theorem notices_announcement (n : Node) : notices n.announcement = [.took n.term] := by
  rw [announcement, notices_append, notices_heartbeats]
  rfl

theorem OnlyTimers.notices {timers : List Output} (h : OnlyTimers timers) :
    notices timers = [] := by
  unfold Node.notices
  rw [List.filterMap_eq_nil_iff]
  intro o ho
  rw [h o ho]
  rfl

/-! ## Leaders and their terms -/

theorem not_leads (h : n.isLeader = false) : ¬ n.Leads t := by
  rintro ⟨hrole, _⟩
  rw [isLeader, hrole] at h
  cases h

theorem leads_iff (h : n.isLeader = true) : n.Leads t ↔ n.term = t := by
  have hrole : n.role = .leader := by simpa [isLeader] using h
  exact ⟨fun hleads => hleads.2, fun hterm => ⟨hrole, hterm⟩⟩

theorem waits_of_follower (h : n.role = .follower) : n.isLeader = false := by
  rw [isLeader, h]
  rfl

theorem waits_of_candidate {votes : IdSet} (h : n.role = .candidate votes) :
    n.isLeader = false := by
  rw [isLeader, h]
  rfl

theorem SettledFor.le (h : n.SettledFor t) : t ≤ n.term := by
  rcases h with hlt | ⟨heq, _⟩
  · exact Int32.le_of_lt hlt
  · exact Int32.le_of_eq heq

theorem settledFor_follower (h : n.role = .follower) : n.SettledFor n.term := by
  refine Or.inr ⟨rfl, fun votes hrole => ?_⟩
  rw [h] at hrole
  cases hrole

/-! ## One call -/

theorem Notifies.of_waits (hn : n.isLeader = false) (hn' : n'.isLeader = false) :
    Notifies n n' [] :=
  .silent fun _ => iff_of_false (not_leads hn') (not_leads hn)

theorem Move.notifies (h : Move e n n' outputs) : Notifies n n' (notices outputs) := by
  cases h with
  | beat event leads =>
    rw [notices_append, notices_heartbeats]
    exact .silent fun _ => Iff.rfl
  | stand event leads grows casts short =>
    rw [notices_append, notices_toPeers]
    exact .of_waits leads rfl
  | standAlone event leads grows casts carried =>
    rw [notices_announcement]
    exact .took leads rfl fun t ht => ht.lt_next grows
  | grant event peer current gate recorded only =>
    rw [notices_append, only.notices]
    exact .silent fun _ => Iff.rfl
  | count event peer current granted role short =>
    exact .of_waits (waits_of_candidate role) rfl
  | win event peer current granted role carried =>
    rw [notices_announcement]
    refine .took (waits_of_candidate role) rfl fun t ht => ht.resolve_right ?_
    rintro ⟨_, hrole⟩
    exact hrole _ role
  | follow event peer current leads only =>
    rw [notices_append, only.notices]
    exact .of_waits leads rfl
  | _ => exact .silent fun _ => Iff.rfl

theorem Move.follower_of_message (h : Move (.message m) n n' outputs) (hn : n.role = .follower) :
    n'.role = .follower ∧ n'.term = n.term ∧ notices outputs = [] := by
  cases h with
  | beat event => cases event
  | stand event => cases event
  | standAlone event => cases event
  | grant event peer current gate recorded only =>
    rw [notices_append, only.notices]
    exact ⟨hn, rfl, rfl⟩
  | count event peer current granted role =>
    rw [hn] at role
    cases role
  | win event peer current granted role =>
    rw [hn] at role
    cases role
  | follow event peer current leads only =>
    rw [notices_append, only.notices]
    exact ⟨rfl, rfl, rfl⟩
  | _ => exact ⟨hn, rfl, rfl⟩

theorem Passes.notifies (h : Passes e n n' outputs) : Notifies n n' (notices outputs) := by
  obtain ⟨mid, before, after, caught, move, rfl⟩ := h
  cases caught with
  | stay => exact move.notifies
  | @adopt m s event peer newer reached =>
    subst event
    -- Once it has stepped down a node does nothing more that calls for a notice.
    obtain ⟨hrole, hterm, hafter⟩ := move.follower_of_message rfl
    have hterm : n'.term = m.term := hterm
    rw [notices_append, hafter, List.append_nil]
    cases hleads : n.isLeader with
    | true =>
      have hlost : Notifies n n' [.lost n'.term] := .lost hleads hrole (hterm ▸ newer)
      rw [hterm] at hlost
      exact hlost
    | false => exact .of_waits hleads (waits_of_follower hrole)

theorem Fails.notifies (h : Fails e n n') :
    n.isLeader = true ∧ n'.isLeader = false ∨ Notifies n n' [] := by
  cases h with
  | early kept => exact Or.inr (.silent fun _ => Iff.rfl)
  | late event newer caught current kept =>
    cases caught with
    | stay => exact Or.inr (.silent fun _ => Iff.rfl)
    | adopt =>
      cases hleads : n.isLeader with
      | true => exact Or.inl ⟨rfl, rfl⟩
      | false => exact Or.inr (.of_waits hleads rfl)

theorem Notifies.of_under {outage : Outage} (h : Notifies (n.under outage) n' said) :
    Notifies n n' said := by
  cases h with
  | silent same => exact .silent same
  | took waits leads later => exact .took waits leads later
  | lost led role newer => exact .lost led role newer

theorem told_of_error {cause : NodeError} (h : (n.call c).2 = .error cause) : n.told c = [] := by
  have h : ((n.under c.outage).handle c.event).2 = .error cause := h
  rw [told, asks, h]
  rfl

/-- A call lapses, or gives notice of what it does to the lead. -/
theorem notifies_call (n : Node) (c : Call) :
    n.Lapses c ∨ Notifies n (n.call c).1 (n.told c) := by
  cases hcall : n.call c with
  | mk n' result =>
    have hhandle : (n.under c.outage).handle c.event = (n', result) := hcall
    cases result with
    | error cause =>
      have herror : (n.call c).2 = .error cause := by rw [hcall]
      rw [told_of_error herror]
      rcases (fails_handle hhandle).notifies with ⟨led, waits⟩ | hnotifies
      · exact Or.inl ⟨led, by rw [hcall]; exact waits, cause, herror⟩
      · exact Or.inr hnotifies.of_under
    | ok outputs =>
      have htold : n.told c = notices outputs := by rw [told, asks, hhandle]
      rw [htold]
      exact Or.inr (passes_of_ok hhandle).notifies.of_under

theorem settledFor_call (h : n.SettledFor t) (c : Call) : (n.call c).1.SettledFor t := by
  obtain ⟨outputs, ⟨mid, before, after, caught, move, _⟩, _⟩ :=
    explains_handle (n.under c.outage) c.event
  have hunder : (n.under c.outage).SettledFor t := h
  exact move.settledFor (caught.settledFor hunder)

theorem Notifies.pairwise {R : Notice → Notice → Prop} (h : Notifies n n' said) :
    said.Pairwise R := by
  cases h with
  | silent => exact List.Pairwise.nil
  | took => exact List.pairwise_singleton R _
  | lost => exact List.pairwise_singleton R _

/-- A notice is of a term that comes after all that are settled, and settles it. -/
theorem Notifies.forward (h : Notifies n n' said) {x : Notice} (hx : x ∈ said) :
    n'.SettledFor x.term ∧ ∀ t, n.SettledFor t → t < x.term := by
  cases h with
  | silent => cases hx
  | took waits leads later =>
    cases List.mem_singleton.mp hx
    exact ⟨((leads_iff leads).mpr rfl).settledFor, later⟩
  | lost led role newer =>
    cases List.mem_singleton.mp hx
    exact ⟨settledFor_follower role, fun t ht => Int32.lt_of_le_of_lt ht.le newer⟩

theorem Notifies.of_taken (h : Notifies n n' said) (hn : n.isLeader = false)
    (hn' : n'.isLeader = true) : said = [.took n'.term] := by
  cases h with
  | silent same => exact absurd ((same n'.term).mp ((leads_iff hn').mpr rfl)) (not_leads hn)
  | took => rfl
  | lost led =>
    rw [hn] at led
    cases led

theorem Notifies.of_lost (h : Notifies n n' said) (hn : n.isLeader = true)
    (hn' : n'.isLeader = false) : said = [.lost n'.term] := by
  cases h with
  | silent same => exact absurd ((same n.term).mpr ((leads_iff hn).mpr rfl)) (not_leads hn')
  | took waits =>
    rw [hn] at waits
    cases waits
  | lost => rfl

theorem Notifies.of_kept (h : Notifies n n' said) (kept : n'.isLeader = n.isLeader) :
    said = [] := by
  cases h with
  | silent => rfl
  | took waits leads =>
    rw [kept, waits] at leads
    cases leads
  | lost led role =>
    have hwaits := waits_of_follower role
    rw [kept, led] at hwaits
    cases hwaits

theorem Lapses.arrived (h : n.Lapses c) (hs : n.Sound) :
    ∃ r, c.event = .message (.voteRequest r) ∧ r.candidate ∈ n.roster.peers ∧ n.term < r.term ∧
      n.Arrived r.term (n.call c).1 := by
  obtain ⟨led, waits, cause, herror⟩ := h
  have hhandle : (n.under c.outage).handle c.event = ((n.call c).1, .error cause) :=
    Prod.ext rfl herror
  rcases (fails_handle hhandle).untouched_or_arrived (sound_under hs _) with
    huntouched | ⟨r, hevent, hpeer, newer, harrived⟩
  · rw [huntouched.node] at waits
    have led : (n.under c.outage).isLeader = true := led
    rw [isLeader] at led waits
    exact absurd (led.symm.trans waits) (by decide)
  · exact ⟨r, hevent, hpeer, newer, harrived.of_under⟩

theorem Sound.tells (hs : n.Sound) (c : Call) : n.Tells c where
  taken hn hn' := by
    rcases notifies_call n c with ⟨led, _⟩ | hnotifies
    · rw [hn] at led
      cases led
    · exact hnotifies.of_taken hn hn'
  lost hn hn' := by
    rcases notifies_call n c with hlapses | hnotifies
    · have htold : n.told c = [] := told_of_error hlapses.2.2.choose_spec
      exact Or.inr ⟨hlapses, htold⟩
    · exact Or.inl (hnotifies.of_lost hn hn')
  kept kept := by
    rcases notifies_call n c with ⟨led, waits, _⟩ | hnotifies
    · rw [kept, led] at waits
      cases waits
    · exact hnotifies.of_kept kept
  lapse hlapses := hlapses.arrived hs

/-! ## Lists of calls -/

theorem afterCalls_concat (n : Node) (done : List Call) (c : Call) :
    n.afterCalls (done ++ [c]) = ((n.afterCalls done).call c).1 := by
  rw [afterCalls, List.foldl_append]
  rfl

theorem heard_concat (n : Node) (done : List Call) (c : Call) :
    n.heard (done ++ [c]) = n.heard done ++ (n.afterCalls done).told c := by
  induction done generalizing n with
  | nil => exact List.append_nil _
  | cons d rest ih =>
    rw [List.cons_append, Node.heard, Node.heard, ih, List.append_assoc]
    rfl

theorem Unlapsed.concat (h : n.Unlapsed (done ++ [c])) :
    n.Unlapsed done ∧ ¬ (n.afterCalls done).Lapses c := by
  constructor
  · intro d c' hpre
    exact h d c' (hpre.trans (List.prefix_append _ _))
  · exact h done c (List.prefix_refl _)

theorem Mirrors.step (hm : n.Mirrors heard) (h : Notifies n n' said) :
    n'.Mirrors (heard ++ said) := by
  intro t
  cases h with
  | silent same =>
    rw [List.append_nil]
    exact (same t).trans (hm t)
  | took waits leads later =>
    rw [leads_iff leads, List.getLast?_concat]
    simp
  | lost led role newer =>
    rw [List.getLast?_concat]
    exact iff_of_false (not_leads (waits_of_follower role)) (by simp)

theorem Mirrors.alternate (hm : n.Mirrors heard) (ha : Notice.Alternate heard)
    (h : Notifies n n' said) : Notice.Alternate (heard ++ said) := by
  cases h with
  | silent same =>
    rw [List.append_nil]
    exact ha
  | took waits leads later =>
    -- The last notice before this one was of a loss, if there was one.
    have hlast : ∀ x ∈ heard.getLast?, x.isTook = false := by
      intro x hx
      cases x with
      | took t => exact absurd ((hm t).mpr hx) (not_leads waits)
      | lost t => rfl
    refine ⟨?_, List.isChain_append.mpr ⟨ha.next, List.isChain_singleton _, ?_⟩⟩
    · rw [List.head?_append]
      intro x hx
      cases hhead : heard.head? with
      | none =>
        rw [hhead] at hx
        cases hx
        rfl
      | some first =>
        rw [hhead] at hx
        exact ha.first x (hhead ▸ hx)
    · intro x hx y hy
      cases hy
      rw [hlast x hx]
      exact Bool.false_ne_true
  | lost led role newer =>
    -- It is its lead that was heard of last, so this is not the first notice.
    have hlast : heard.getLast? = some (.took n.term) := (hm n.term).mp ((leads_iff led).mpr rfl)
    have hne : heard ≠ [] := by
      rintro rfl
      cases hlast
    refine ⟨?_, List.isChain_append.mpr ⟨ha.next, List.isChain_singleton _, ?_⟩⟩
    · rw [List.head?_append_of_ne_nil _ hne]
      exact ha.first
    · intro x hx y hy
      cases hlast.symm.trans hx
      cases hy
      exact Bool.false_ne_true.symm

theorem rising_heard (n : Node) (calls : List Call) :
    (∀ x ∈ n.heard calls, (n.afterCalls calls).SettledFor x.term) ∧
      (n.heard calls).Pairwise (·.term < ·.term) := by
  induction calls using List.reverseRecOn with
  | nil => exact ⟨List.forall_mem_nil _, List.Pairwise.nil⟩
  | append_singleton done c ih =>
    obtain ⟨hsettled, hrising⟩ := ih
    rw [afterCalls_concat, heard_concat]
    have hold : ∀ x ∈ n.heard done, ((n.afterCalls done).call c).1.SettledFor x.term :=
      fun x hx => settledFor_call (hsettled x hx) c
    rcases notifies_call (n.afterCalls done) c with ⟨_, _, cause, herror⟩ | hnotifies
    · rw [told_of_error herror, List.append_nil]
      exact ⟨hold, hrising⟩
    · constructor
      · intro x hx
        rcases List.mem_append.mp hx with hx | hx
        · exact hold x hx
        · exact (hnotifies.forward hx).1
      · rw [List.pairwise_append]
        refine ⟨hrising, hnotifies.pairwise, fun x hx y hy => ?_⟩
        exact (hnotifies.forward hy).2 _ (hsettled x hx)

/-- A leader that fails to answer a newer candidate is still heard as the leader. -/
theorem Lapses.not_mirrors (h : n.Lapses c) (hm : n.Mirrors heard) :
    ¬ (n.call c).1.Mirrors (heard ++ n.told c) := by
  obtain ⟨led, waits, cause, herror⟩ := h
  intro hm'
  have hlast : heard.getLast? = some (.took n.term) := (hm n.term).mp ((leads_iff led).mpr rfl)
  rw [told_of_error herror, List.append_nil] at hm'
  exact not_leads waits ((hm' n.term).mpr hlast)

theorem mirrors_fresh (h : n.Fresh) : n.Mirrors [] := by
  intro t
  exact iff_of_false (not_leads (waits_of_follower h.role)) (by simp)

theorem mirrors_heard (h : n.Fresh) (hcalls : n.Unlapsed calls) :
    (n.afterCalls calls).Mirrors (n.heard calls) ∧ Notice.Alternate (n.heard calls) := by
  induction calls using List.reverseRecOn with
  | nil => exact ⟨mirrors_fresh h, fun x hx => (by cases hx), List.IsChain.nil⟩
  | append_singleton done c ih =>
    obtain ⟨hdone, hlapses⟩ := hcalls.concat
    obtain ⟨hm, ha⟩ := ih hdone
    have hnotifies := (notifies_call (n.afterCalls done) c).resolve_left hlapses
    rw [afterCalls_concat, heard_concat]
    exact ⟨hm.step hnotifies, hm.alternate ha hnotifies⟩

/-- The notices are right at every moment if and only if no call lapses. -/
theorem mirrors_iff_unlapsed (h : n.Fresh) (calls : List Call) :
    (∀ done, done <+: calls → (n.afterCalls done).Mirrors (n.heard done)) ↔ n.Unlapsed calls := by
  constructor
  · intro hmirrors done c hpre hlapses
    have hbefore := hmirrors done ((List.prefix_append _ _).trans hpre)
    have hafter := hmirrors _ hpre
    rw [afterCalls_concat, heard_concat] at hafter
    exact hlapses.not_mirrors hbefore hafter
  · intro hcalls done hpre
    have hdone : n.Unlapsed done := fun d c hd => hcalls d c (hd.trans hpre)
    exact (mirrors_heard h hdone).1

/-- **Notices mirror the lead, but for one kind of failure.** Whatever calls are made of a node that
starts on a fresh storage, and whatever fails in them: the last notice tells at every moment whether
the node leads, and which term, if and only if no call lapses, and then the lead is taken and lost
in turns. Every notice is of a later term than the one before. A call that takes the lead gives just
the notice of that, with the node's term; one that loses it gives just the notice of that, with the
term adopted, unless it lapses and gives none; any other call gives none. A call lapses only if a
leader fails to answer the candidate of a newer term once it has adopted that term. -/
theorem notices_mirror_the_lead (h : n.Fresh) (calls : List Call) :
    ((∀ done, done <+: calls → ∀ t,
      (n.afterCalls done).Leads t ↔ (n.heard done).getLast? = some (.took t)) ↔
        n.Unlapsed calls) ∧
    (n.Unlapsed calls → Notice.Alternate (n.heard calls)) ∧
    (n.heard calls).Pairwise (·.term < ·.term) ∧
    ∀ c, (n.afterCalls calls).Tells c := by
  refine ⟨mirrors_iff_unlapsed h calls, fun hcalls => (mirrors_heard h hcalls).2,
    (rising_heard n calls).2, fun c => ?_⟩
  obtain ⟨roster, s, hfresh, hstart⟩ := h
  exact ((Reachable.start (.fresh hfresh) hstart).afterCalls calls).sound.tells c

/-- A node of three members is elected and asked for its vote in a newer term. -/
def challengedCalls (outage : Outage) : List Call :=
  [⟨.electionTimeout, {}⟩,
    ⟨.message (.voteResponse { voter := 2, term := 1, granted := true }), {}⟩,
    ⟨.message (.voteRequest { candidate := 2, term := 7, last := {} }), outage⟩]

theorem fresh_challenged : (reborn (.of 1 [2, 3]) {}).Fresh :=
  ⟨.of 1 [2, 3], {}, ⟨rfl, rfl, Storage.backed_of_memory rfl⟩, rfl⟩

/-- If votes cannot be read meanwhile, one of the calls lapses. -/
theorem notices_mirror_the_lead_challengedCalls :
    let n : Node := reborn (.of 1 [2, 3]) {}
    n.heard (challengedCalls {}) = [.took 1, .lost 7] ∧
      (n.heard (challengedCalls {})).Pairwise (·.term < ·.term) ∧
      n.heard (challengedCalls { loads := true }) = [.took 1] ∧
      ¬ n.Unlapsed (challengedCalls { loads := true }) := by
  intro n
  have hheard : n.heard (challengedCalls { loads := true }) = [.took 1] := by decide +kernel
  have hleft : ¬ (n.afterCalls (challengedCalls { loads := true })).Leads 1 := by decide +kernel
  obtain ⟨_, _, hrising, _⟩ := notices_mirror_the_lead fresh_challenged (challengedCalls {})
  obtain ⟨hmirrors, _⟩ :=
    notices_mirror_the_lead fresh_challenged (challengedCalls { loads := true })
  refine ⟨by decide +kernel, hrising, hheard, fun hcalls => hleft ?_⟩
  rw [hmirrors.mpr hcalls _ (List.prefix_refl _) 1, hheard]
  rfl

/-- The last notice of a node that has stepped down still is that it leads the term before. -/
theorem lost_lead_is_unheard :
    let n : Node := reborn (.of 1 [2, 3]) {}
    n.Fresh ∧ ¬ ∀ t, (n.afterCalls (challengedCalls { loads := true })).Leads t ↔
      (n.heard (challengedCalls { loads := true })).getLast? = some (.took t) := by
  intro n
  refine ⟨fresh_challenged, fun hmirrors => ?_⟩
  have hlast : (n.heard (challengedCalls { loads := true })).getLast? = some (.took 1) := by
    decide +kernel
  have hleft : ¬ (n.afterCalls (challengedCalls { loads := true })).Leads 1 := by decide +kernel
  exact hleft ((hmirrors 1).mpr hlast)

end Node

end Elector
