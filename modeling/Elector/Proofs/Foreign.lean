import Elector.Proofs.Attending
import Elector.Proofs.Reachable

/-!
# Frames that a node takes no notice of

Bytes that are no frame, and frames whose sender is not another member, leave a node as it is and
have nothing sent (`meets_foreign`). So they may be left out of anything that reaches a node: it
reacts to the rest in the same way, and ends in the same state (`foreign_frames_are_invisible`).
-/

namespace Elector

/-- What reaches a node from outside: bytes off the wire, or one of its timers. -/
inductive Stimulus
  | frame (bs : Bytes)
  | electionTimeout
  | heartbeatDue
deriving DecidableEq, Repr

namespace Stimulus

def event? : Stimulus → Option Event
  | frame bs =>
    match Frame.decode bs with
    | .ok m => some (.message m)
    | .error _ => none
  | electionTimeout => some .electionTimeout
  | heartbeatDue => some .heartbeatDue

/-- Bytes that are no frame, or the frame of one who is not another member. -/
def foreign (roster : Roster) : Stimulus → Bool
  | frame bs =>
    match Frame.decode bs with
    | .ok m => m.sender = roster.self || m.sender ∉ roster.members
    | .error _ => true
  | _ => false

end Stimulus

/-- A stimulus, with the operations of the storage that fail while the node deals with it. -/
structure Contact where
  stimulus : Stimulus
  outage : Outage := {}
deriving DecidableEq, Repr

namespace Node

def meets (n : Node) (c : Contact) : Node × Option (Except NodeError (List Output)) :=
  match c.stimulus.event? with
  | some event => ((n.call ⟨event, c.outage⟩).1, some (n.call ⟨event, c.outage⟩).2)
  | none => (n, none)

def afterContacts (n : Node) (contacts : List Contact) : Node :=
  contacts.foldl (fun n c => (n.meets c).1) n

def results (n : Node) : List Contact → List (Contact × Option (Except NodeError (List Output)))
  | [] => []
  | c :: rest => (c, (n.meets c).2) :: (n.meets c).1.results rest

def heeded (n : Node) (contacts : List Contact) : List Contact :=
  contacts.filter fun c => !c.stimulus.foreign n.roster

variable {n n' : Node} {c : Contact} {m : Message} {bs : Bytes}

/-! ## One contact -/

theorem under_under (n : Node) (outage outage' : Outage) :
    (n.under outage).under outage' = n.under outage' := rfl

theorem onMessage_foreign (h : m.sender = n.id ∨ m.sender ∉ n.roster.members) :
    n.onMessage m = (n, .ok []) := by
  have hpeer : ¬ n.roster.isPeer m.sender = true := by
    rw [Roster.isPeer_iff, Roster.mem_peers]
    rintro ⟨hmember, hne⟩
    exact h.elim hne fun hforeign => hforeign hmember
  rw [onMessage.eq_def, if_neg hpeer]

theorem foreign_frame (hdecode : Frame.decode bs = .ok m) {roster : Roster} :
    (Stimulus.frame bs).foreign roster = true ↔
      m.sender = roster.self ∨ m.sender ∉ roster.members := by
  simp [Stimulus.foreign, hdecode]

/-- A foreign frame leaves the node as it is, up to which operations of its storage fail, and has
nothing sent. -/
theorem meets_foreign (h : c.stimulus.foreign n.roster = true) :
    (∀ outage, (n.meets c).1.under outage = n.under outage) ∧
      ∀ result, (n.meets c).2 = some result → result = .ok [] := by
  rcases c with ⟨stimulus, failing⟩
  cases stimulus with
  | electionTimeout => cases h
  | heartbeatDue => cases h
  | frame bs =>
    cases hdecode : Frame.decode bs with
    | error e => simp [meets, Stimulus.event?, hdecode]
    | ok m =>
      have hcall : n.call ⟨.message m, failing⟩ = (n.under failing, .ok []) :=
        onMessage_foreign ((foreign_frame hdecode).mp h)
      simp [meets, Stimulus.event?, hdecode, hcall, under_under]

theorem meets_of_under (h : ∀ outage, n.under outage = n'.under outage) (c : Contact) :
    (∀ outage, (n.meets c).1.under outage = (n'.meets c).1.under outage) ∧
      (n.meets c).2 = (n'.meets c).2 := by
  rw [meets, meets]
  cases c.stimulus.event? with
  | none => exact ⟨h, rfl⟩
  | some event =>
    have hcall : n.call ⟨event, c.outage⟩ = n'.call ⟨event, c.outage⟩ := by
      rw [call, call, h]
    simp only [hcall, implies_true, and_self]

theorem roster_meets (n : Node) (c : Contact) : (n.meets c).1.roster = n.roster := by
  rw [meets]
  cases c.stimulus.event? with
  | none => rfl
  | some event => exact roster_handle (n.under c.outage) event

/-! ## Lists of contacts -/

theorem heeded_cons_foreign {rest : List Contact} (h : c.stimulus.foreign n.roster = true) :
    n.heeded (c :: rest) = n.heeded rest := List.filter_cons_of_neg (by simp [h])

theorem heeded_cons {rest : List Contact} (h : c.stimulus.foreign n.roster = false) :
    n.heeded (c :: rest) = c :: n.heeded rest := List.filter_cons_of_pos (by simp [h])

theorem heeded_meets (n : Node) (c : Contact) : (n.meets c).1.heeded = n.heeded := by
  funext contacts
  rw [heeded, heeded, roster_meets]

theorem under_afterContacts (h : ∀ outage, n.under outage = n'.under outage)
    (contacts : List Contact) (outage : Outage) :
    (n.afterContacts contacts).under outage =
      (n'.afterContacts (n.heeded contacts)).under outage := by
  induction contacts generalizing n n' with
  | nil => exact h outage
  | cons c rest ih =>
    cases hforeign : c.stimulus.foreign n.roster with
    | true =>
      have hsame : ∀ outage, (n.meets c).1.under outage = n'.under outage :=
        fun outage => ((meets_foreign hforeign).1 outage).trans (h outage)
      rw [heeded_cons_foreign hforeign, ← heeded_meets n c]
      exact ih hsame
    | false =>
      rw [heeded_cons hforeign, ← heeded_meets n c]
      exact ih (meets_of_under h c).1

theorem results_heeded (h : ∀ outage, n.under outage = n'.under outage)
    (contacts : List Contact) :
    (n.results contacts).filter (fun r => !r.1.stimulus.foreign n.roster) =
      n'.results (n.heeded contacts) := by
  induction contacts generalizing n n' with
  | nil => rfl
  | cons c rest ih =>
    have hroster : (n.meets c).1.roster = n.roster := roster_meets n c
    cases hforeign : c.stimulus.foreign n.roster with
    | true =>
      have hsame : ∀ outage, (n.meets c).1.under outage = n'.under outage :=
        fun outage => ((meets_foreign hforeign).1 outage).trans (h outage)
      have hrest := ih hsame
      rw [hroster, heeded_meets] at hrest
      rw [heeded_cons_foreign hforeign, results, List.filter_cons_of_neg (by simp [hforeign]),
        hrest]
    | false =>
      obtain ⟨hsame, hresult⟩ := meets_of_under h c
      have hrest := ih hsame
      rw [hroster, heeded_meets] at hrest
      rw [heeded_cons hforeign, results, results, List.filter_cons_of_pos (by simp [hforeign]),
        hrest, hresult]

theorem results_foreign {r : Contact × Option (Except NodeError (List Output))}
    {contacts : List Contact} (hr : r ∈ n.results contacts)
    (hforeign : r.1.stimulus.foreign n.roster = true) :
    ∀ result, r.2 = some result → result = .ok [] := by
  induction contacts generalizing n with
  | nil => cases hr
  | cons c rest ih =>
    rcases List.mem_cons.mp hr with rfl | hrest
    · exact (meets_foreign hforeign).2
    · exact ih hrest (roster_meets n c ▸ hforeign)

end Node

/-- A running host that is handed a foreign frame reports it, or goes on as if there had been
none. -/
theorem Host.deliverBytes_foreign {h : Host} {p : Process} {bs : Bytes} (hp : h.process = some p)
    (running : p.running = true) (idle : p.waiting = [])
    (hforeign : (Stimulus.frame bs).foreign p.node.roster = true) :
    (∃ e, h.deliverBytes bs = .error (.malformed e)) ∨ h.deliverBytes bs = .ok (h, []) := by
  cases hdecode : Frame.decode bs with
  | error e => exact Or.inl ⟨e, by simp only [deliverBytes, hdecode]⟩
  | ok m =>
    have hhandle : p.node.handle (.message m) = (p.node, .ok []) :=
      Node.onMessage_foreign ((Node.foreign_frame hdecode).mp hforeign)
    have hreact : p.react h.now (.message m) = (p, []) := by
      rw [Process.react, hhandle]
      rfl
    have hrunning : h.running = true := by
      rw [Host.running, hp]
      exact running
    refine Or.inr ?_
    simp only [deliverBytes, hdecode, deliver, hrunning, if_true, submit, hp, running,
      Process.settle_post idle]
    rw [Process.take, hreact, ← hp]

namespace Node

/-- **Foreign frames are invisible.** Let bytes, election timeouts and heartbeat ticks reach a node
in any order, whichever operations of its storage fail meanwhile, and leave out the bytes that are
no frame and the frames whose sender is the node itself or no member. Each of the others is handled
with the same outputs or the same error, and the node ends in the same state, with the same ballots,
the same votes written and the same disk. What was left out has no outputs; a process that looks at
things at once is left by it as it is, with its alarm. -/
theorem foreign_frames_are_invisible (n : Node) (contacts : List Contact) :
    (n.results contacts).filter (fun r => !r.1.stimulus.foreign n.roster) =
      n.results (n.heeded contacts) ∧
    (∀ r ∈ n.results contacts, r.1.stimulus.foreign n.roster = true →
      ∀ result, r.2 = some result → result = .ok []) ∧
    (∀ outage, (n.afterContacts contacts).under outage =
      (n.afterContacts (n.heeded contacts)).under outage) ∧
    (n.afterContacts contacts).status = (n.afterContacts (n.heeded contacts)).status ∧
    (n.afterContacts contacts).storage.ballots =
      (n.afterContacts (n.heeded contacts)).storage.ballots ∧
    (n.afterContacts contacts).storage.votesWritten? =
      (n.afterContacts (n.heeded contacts)).storage.votesWritten? ∧
    (n.afterContacts contacts).storage.disk = (n.afterContacts (n.heeded contacts)).storage.disk ∧
    ∀ (h : Host) (p : Process) (bs : Bytes), h.process = some p → p.node = n →
      p.running = true → p.waiting = [] → (Stimulus.frame bs).foreign n.roster = true →
      (∃ e, h.deliverBytes bs = .error (.malformed e)) ∨ h.deliverBytes bs = .ok (h, []) := by
  have hunder := under_afterContacts (fun _ => rfl) contacts (n := n)
  have hsame {α : Type} (observe : Node → α)
      (blind : ∀ n : Node, observe (n.under {}) = observe n) :
      observe (n.afterContacts contacts) = observe (n.afterContacts (n.heeded contacts)) := by
    rw [← blind, hunder {}, blind]
  refine ⟨results_heeded (fun _ => rfl) contacts, fun r hr => results_foreign hr, hunder,
    hsame status fun _ => rfl, hsame (·.storage.ballots) fun _ => rfl,
    hsame (·.storage.votesWritten?) fun _ => rfl, hsame (·.storage.disk) fun _ => rfl, ?_⟩
  rintro h p bs hp rfl running idle hforeign
  exact Host.deliverBytes_foreign hp running idle hforeign

end Node

end Elector
