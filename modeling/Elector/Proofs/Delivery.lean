import Mathlib.Data.List.Basic
import Mathlib.Data.List.Induction
import Elector.Network
import Elector.Proofs.Frame

/-!
# Exact delivery

What happens to a message depends on what was done with the network before it was sent, and on
nothing else. The functions of the first part say so in terms of the uses alone: which inbox is the
latest of a member (`latest?`), who is isolated (`cut`), which inboxes are dropped (`dropped`), and
hence which messages are the mail of an inbox (`mail`). The network follows them (`tracks`), and
what is read of an inbox together with what waits in it is its mail (`stands`).
-/

namespace Elector

/-- Something that is done with a network. Inboxes go by their number. -/
inductive Use
  | register (id : NodeId)
  | isolate (id : NodeId)
  | heal (id : NodeId)
  | dispatch (source : NodeId) (roster : Roster) (target : NodeId) (m : Message)
  | receive (inbox : Nat)
  | close (inbox : Nat)
deriving DecidableEq

def Use.new? : Use → Option NodeId
  | .register id => some id
  | _ => none

namespace Network

def use (n : Network) : Use → Network
  | .register id => (n.register id).1
  | .isolate id => n.isolate id
  | .heal id => n.heal id
  | .dispatch source roster target m => (n.dispatch source roster target m).1
  | .receive inbox => (n.receive inbox).1
  | .close inbox => n.close inbox

def after (uses : List Use) : Network := uses.foldl use {}

/-! ## What a history says -/

def moments (uses : List Use) : List (List Use × Use) :=
  uses.mapIdx fun k u => (uses.take k, u)

def registered (uses : List Use) : List NodeId := uses.filterMap Use.new?

def latest? (uses : List Use) (id : NodeId) : Option Nat :=
  ((registered uses).idxsOf id).getLast?

def cut (uses : List Use) (id : NodeId) : Bool :=
  (uses.filter fun u => u = .isolate id || u = .heal id).getLast? = some (.isolate id)

/-- Whether an inbox has been dropped: one that does not exist yet cannot be. -/
def dropped (uses : List Use) (inbox : Nat) : Bool :=
  (moments uses).any fun (done, u) => u = .close inbox && inbox < (registered done).length

/-- The message that a use puts into the inbox: it is sent to another member, whose latest inbox
this is; the inbox is not dropped; and neither end is isolated. -/
def posted? (inbox : Nat) (done : List Use) : Use → Option Message
  | .dispatch source roster target m =>
    if roster.isPeer target ∧ latest? done target = some inbox ∧ dropped done inbox = false ∧
        cut done source = false ∧ cut done target = false then
      some m
    else none
  | _ => none

def mail (uses : List Use) (inbox : Nat) : List Message :=
  (moments uses).filterMap fun (done, u) => posted? inbox done u

def reading? (inbox : Nat) (done : List Use) : Use → Option Bytes
  | .receive i =>
    if i = inbox then
      match ((after done).receive inbox).2 with
      | .frame bs => some bs
      | _ => none
    else none
  | _ => none

def readings (uses : List Use) (inbox : Nat) : List Bytes :=
  (moments uses).filterMap fun (done, u) => reading? inbox done u

def outcome (uses : List Use) (source target : NodeId) : Except DeliveryError Unit :=
  if cut uses source || cut uses target then .ok ()
  else if target ∉ registered uses then .error (.unknownPeer target)
  else if (latest? uses target).any (dropped uses) then .error (.unreachable target)
  else .ok ()

variable {uses : List Use} {u : Use} {id new : NodeId} {inbox : Nat}

theorem after_concat (uses : List Use) (u : Use) : after (uses ++ [u]) = (after uses).use u :=
  List.foldl_concat ..

theorem moments_concat (uses : List Use) (u : Use) :
    moments (uses ++ [u]) = moments uses ++ [(uses, u)] := by
  rw [moments, List.mapIdx_concat, List.take_left]
  congr 1
  refine List.mapIdx_eq_mapIdx_iff.mpr fun k hk => ?_
  rw [List.take_append_of_le_length (Nat.le_of_lt hk)]

theorem dropped_concat (uses : List Use) (u : Use) (inbox : Nat) :
    dropped (uses ++ [u]) inbox =
      (dropped uses inbox || (u = .close inbox && inbox < (registered uses).length)) := by
  rw [dropped, moments_concat, List.any_append]
  simp [dropped]

theorem mail_concat (uses : List Use) (u : Use) (inbox : Nat) :
    mail (uses ++ [u]) inbox = mail uses inbox ++ (posted? inbox uses u).toList := by
  rw [mail, moments_concat, List.filterMap_append]
  cases h : posted? inbox uses u <;> simp [mail, h]

theorem readings_concat (uses : List Use) (u : Use) (inbox : Nat) :
    readings (uses ++ [u]) inbox = readings uses inbox ++ (reading? inbox uses u).toList := by
  rw [readings, moments_concat, List.filterMap_append]
  cases h : reading? inbox uses u <;> simp [readings, h]

private theorem getElem?_concat {α : Type} (xs : List α) (x : α) (i : Nat) :
    (xs ++ [x])[i]? = if i = xs.length then some x else xs[i]? := by
  rw [List.getElem?_append]
  grind

theorem registered_concat (uses : List Use) (u : Use) :
    registered (uses ++ [u]) = registered uses ++ u.new?.toList := by
  rw [registered, List.filterMap_append]
  cases h : u.new? <;> simp [registered, h]

theorem latest?_concat (uses : List Use) (u : Use) (id : NodeId) :
    latest? (uses ++ [u]) id =
      if u = .register id then some (registered uses).length else latest? uses id := by
  rw [latest?, registered_concat, List.idxsOf_append]
  cases u with
  | register new =>
    by_cases h : new = id
    · simp [Use.new?, h]
    · simp [Use.new?, h, latest?]
  | _ => simp [Use.new?, latest?]

theorem cut_concat (uses : List Use) (u : Use) (id : NodeId) :
    cut (uses ++ [u]) id =
      if u = .isolate id then true else if u = .heal id then false else cut uses id := by
  rw [cut, List.filter_append]
  by_cases hisolate : u = .isolate id
  · simp [hisolate]
  · by_cases hheal : u = .heal id
    · simp [hheal]
    · simp [hisolate, hheal, cut]

theorem registered_of_latest? (h : latest? uses id = some inbox) :
    (registered uses)[inbox]? = some id := by
  induction uses using List.reverseRecOn with
  | nil => simp [latest?, registered] at h
  | append_singleton uses u ih =>
    rw [latest?_concat] at h
    rw [registered_concat]
    split at h
    · rename_i hu
      rw [← Option.some.inj h, hu]
      simp [Use.new?]
    · have hold := ih h
      have hlt := (List.getElem?_eq_some_iff.mp hold).1
      rw [List.getElem?_append_left hlt, hold]

theorem latest?_eq_none : latest? uses id = none ↔ id ∉ registered uses := by
  induction uses using List.reverseRecOn with
  | nil => simp [latest?, registered]
  | append_singleton uses u ih =>
    rw [latest?_concat, registered_concat]
    cases u with
    | register new => by_cases h : new = id <;> simp [Use.new?, h, ih, Ne.symm]
    | _ => simpa [Use.new?] using ih

theorem unregistered (h : (registered uses).length ≤ inbox) :
    dropped uses inbox = false ∧ mail uses inbox = [] := by
  induction uses using List.reverseRecOn with
  | nil => exact ⟨rfl, rfl⟩
  | append_singleton uses u ih =>
    have hbefore : (registered uses).length ≤ inbox := by
      rw [registered_concat, List.length_append] at h
      exact Nat.le_of_add_right_le h
    obtain ⟨hopen, hmail⟩ := ih hbefore
    constructor
    · simp [dropped_concat, hopen, Nat.not_lt.mpr hbefore]
    · rw [mail_concat, hmail, List.nil_append, Option.toList_eq_nil_iff]
      cases u with
      | dispatch source roster target m =>
        refine if_neg fun hposted => ?_
        have howner := registered_of_latest? hposted.2.1
        exact absurd (List.getElem?_eq_some_iff.mp howner).1 (Nat.not_lt.mpr hbefore)
      | _ => rfl

/-! ## The network follows the history -/

/-- The network knows the inboxes and the isolated members that the uses say. -/
structure Tracks (n : Network) (uses : List Use) : Prop where
  inbox : ∀ r, n.inboxes[r]?.map (fun b => (b.owner, b.closed)) =
    (registered uses)[r]?.map fun id => (id, dropped uses r)
  latest : ∀ id, n.latest.find? id = latest? uses id
  isolated : ∀ id, n.isIsolated id = cut uses id

variable {n : Network} {source target : NodeId} {roster : Roster} {m : Message}

theorem Tracks.length (h : n.Tracks uses) : n.inboxes.length = (registered uses).length := by
  have hinboxes := h.inbox (registered uses).length
  have hregistered := h.inbox n.inboxes.length
  rw [List.getElem?_length, Option.map_none, Option.map_eq_none_iff, List.getElem?_eq_none_iff]
    at hinboxes
  rw [List.getElem?_length, Option.map_none, eq_comm, Option.map_eq_none_iff,
    List.getElem?_eq_none_iff] at hregistered
  exact Nat.le_antisymm hinboxes hregistered

theorem Tracks.dispatch (h : n.Tracks uses) (peer : roster.isPeer target = true) (m : Message) :
    n.dispatch source roster target m =
      if cut uses source || cut uses target then (n, .ok ())
      else match latest? uses target with
        | none => (n, .error (.unknownPeer target))
        | some r =>
          if dropped uses r then (n, .error (.unreachable target))
          else
            ({ n with
                inboxes := n.inboxes.modify r fun b =>
                  { b with frames := b.frames ++ [Frame.encode m] } }, .ok ()) := by
  rw [Network.dispatch, if_pos peer, Network.send, h.isolated, h.isolated, h.latest]
  cases hlatest : latest? uses target with
  | none => rfl
  | some r =>
    have hinbox := h.inbox r
    rw [registered_of_latest? hlatest, Option.map_some, Option.map_eq_some_iff] at hinbox
    obtain ⟨⟨owner, closed, frames⟩, hb, hstanding⟩ := hinbox
    obtain ⟨rfl, rfl⟩ := Prod.mk.inj hstanding
    cases hdropped : dropped uses r <;> simp [hb, hdropped]

/-- A dispatch adds to an inbox what the history says. -/
theorem Tracks.inbox_dispatch (h : n.Tracks uses) (r : Nat) :
    (n.use (.dispatch source roster target m)).inboxes[r]? =
      n.inboxes[r]?.map fun b =>
        { b with
          frames := b.frames ++
            (posted? r uses (.dispatch source roster target m)).toList.map Frame.encode } := by
  have hlost : n.inboxes[r]? =
      n.inboxes[r]?.map fun b => { b with frames := b.frames ++ [].map Frame.encode } := by
    simp
  by_cases peer : roster.isPeer target = true
  · rw [use, h.dispatch peer]
    by_cases hcut : (cut uses source || cut uses target) = true
    · rw [if_pos hcut, posted?, if_neg fun hposted => by simp [hposted.2.2.2] at hcut]
      exact hlost
    · rw [if_neg hcut]
      rw [Bool.not_eq_true, Bool.or_eq_false_iff] at hcut
      cases hlatest : latest? uses target with
      | none =>
        rw [posted?, if_neg fun hposted => by simp [hlatest] at hposted]
        exact hlost
      | some i =>
        by_cases hdropped : dropped uses i = true
        · have hunposted : ¬ (roster.isPeer target ∧ latest? uses target = some r ∧
              dropped uses r = false ∧ cut uses source = false ∧ cut uses target = false) := by
            rintro ⟨-, hr, hopen, -⟩
            rw [Option.some.inj (hlatest.symm.trans hr), hopen] at hdropped
            exact absurd hdropped Bool.false_ne_true
          rw [posted?, if_neg hunposted]
          simp [hdropped]
        · by_cases hr : i = r
          · subst hr
            simp [hdropped, posted?, peer, hlatest, hcut]
          · simp [hdropped, posted?, hlatest, hr]
  · rw [use, Network.dispatch, if_neg peer, posted?, if_neg fun hposted => peer hposted.1]
    exact hlost

theorem inbox_receive (n : Network) (i r : Nat) :
    (n.use (.receive i)).inboxes[r]? =
      n.inboxes[r]?.map fun b =>
        if i = r ∧ b.closed = false then { b with frames := b.frames.tail } else b := by
  rw [use, receive]
  cases hi : n.inboxes[i]? with
  | none =>
    by_cases hr : i = r
    · simp [← hr, hi]
    · simp [hr]
  | some b =>
    obtain ⟨owner, closed, frames⟩ := b
    by_cases hr : i = r
    · subst hr
      cases closed <;> cases frames <;> simp [hi]
    · cases closed <;> cases frames <;> simp [hr]

theorem inbox_close (n : Network) (i r : Nat) :
    (n.use (.close i)).inboxes[r]? =
      n.inboxes[r]?.map fun b => if i = r then { b with closed := true, frames := [] } else b := by
  rw [use, close, List.getElem?_modify]
  by_cases hr : i = r <;> simp [hr]

theorem inbox_register (n : Network) (new : NodeId) (r : Nat) :
    (n.use (.register new)).inboxes[r]? =
      if r = n.inboxes.length then some ⟨new, false, []⟩ else n.inboxes[r]? := by
  exact getElem?_concat n.inboxes _ r

theorem dispatch_changes (n : Network) (source : NodeId) (roster : Roster) (target : NodeId)
    (m : Message) : ∃ inboxes, n.use (.dispatch source roster target m) = { n with inboxes } := by
  rw [use, Network.dispatch]
  split
  · rw [send]
    split
    · exact ⟨_, rfl⟩
    · split
      · exact ⟨_, rfl⟩
      · split <;> exact ⟨_, rfl⟩
  · exact ⟨_, rfl⟩

theorem receive_changes (n : Network) (i : Nat) :
    ∃ inboxes, n.use (.receive i) = { n with inboxes } := by
  rw [use, receive]
  split
  · exact ⟨_, rfl⟩
  · split
    · exact ⟨_, rfl⟩
    · split <;> exact ⟨_, rfl⟩

theorem latest_use (n : Network) (u : Use) (id : NodeId) :
    (n.use u).latest.find? id =
      if u = .register id then some n.inboxes.length else n.latest.find? id := by
  cases u with
  | register new => simp [use, register, IdMap.find?_insert, eq_comm]
  | dispatch source roster target m =>
    obtain ⟨inboxes, h⟩ := n.dispatch_changes source roster target m
    simp [h]
  | receive i =>
    obtain ⟨inboxes, h⟩ := n.receive_changes i
    simp [h]
  | _ => simp [use, isolate, heal, close]

theorem isIsolated_use (n : Network) (u : Use) (id : NodeId) :
    (n.use u).isIsolated id =
      if u = .isolate id then true else if u = .heal id then false else n.isIsolated id := by
  cases u with
  | isolate new =>
    by_cases h : new = id
    · simp [use, isolate, isIsolated, h]
    · simp [use, isolate, isIsolated, h, Ne.symm h]
  | heal new =>
    by_cases h : new = id
    · simp [use, heal, isIsolated, h]
    · simp [use, heal, isIsolated, h, Ne.symm h]
  | dispatch source roster target m =>
    obtain ⟨inboxes, h⟩ := n.dispatch_changes source roster target m
    simp [h, isIsolated]
  | receive i =>
    obtain ⟨inboxes, h⟩ := n.receive_changes i
    simp [h, isIsolated]
  | register new =>
    rw [if_neg (by simp), if_neg (by simp)]
    rfl
  | close i =>
    rw [if_neg (by simp), if_neg (by simp)]
    rfl

theorem Tracks.use (h : n.Tracks uses) (u : Use) : (n.use u).Tracks (uses ++ [u]) where
  latest := by
    intro id
    rw [latest_use, latest?_concat, h.latest, h.length]
  isolated := by
    intro id
    rw [isIsolated_use, cut_concat, h.isolated]
  inbox := by
    intro r
    have hold := h.inbox r
    rw [registered_concat, dropped_concat]
    cases u with
    | register new =>
      rw [inbox_register, h.length, Use.new?, Option.toList_some, getElem?_concat]
      by_cases hr : r = (registered uses).length
      · simp [hr, (unregistered (Nat.le_refl _)).1]
      · simpa [hr] using hold
    | dispatch source roster target m =>
      rw [h.inbox_dispatch, Option.map_map]
      simpa [Use.new?, Function.comp_def] using hold
    | receive i =>
      have hstanding : (fun b : Inbox => (b.owner, b.closed)) ∘ (fun b : Inbox =>
          if i = r ∧ b.closed = false then { b with frames := b.frames.tail } else b) =
            fun b => (b.owner, b.closed) := by
        funext b
        simp only [Function.comp_apply]
        split <;> rfl
      rw [inbox_receive, Option.map_map, hstanding, hold]
      simp [Use.new?]
    | close i =>
      rw [inbox_close, Option.map_map]
      by_cases hr : i = r
      · subst hr
        cases hi : (registered uses)[i]? with
        | none => simpa [Use.new?, hi] using hold
        | some id =>
          have hlt := (List.getElem?_eq_some_iff.mp hi).1
          rw [hi] at hold
          obtain ⟨b, hb, hstanding⟩ := Option.map_eq_some_iff.mp hold
          simp_all [Use.new?]
      · simpa [Use.new?, hr, Function.comp_def] using hold
    | _ => simpa [Network.use, isolate, heal, Use.new?] using hold

theorem tracks (uses : List Use) : (after uses).Tracks uses := by
  induction uses using List.reverseRecOn with
  | nil =>
    constructor <;> intro <;> simp [after, registered, latest?, cut, isIsolated]
  | append_singleton uses u ih =>
    rw [after_concat]
    exact ih.use u

/-- What was read of an inbox is the beginning of its mail, and while it is not dropped the rest of
its mail waits in it. -/
structure Stands (uses : List Use) (r : Nat) (waiting : List Bytes) : Prop where
  inbox : (after uses).inboxes[r]? = (registered uses)[r]?.map (⟨·, dropped uses r, waiting⟩)
  read : readings uses r <+: (mail uses r).map Frame.encode
  rest : dropped uses r = false → readings uses r ++ waiting = (mail uses r).map Frame.encode

variable {r : Nat} {waiting : List Bytes}

theorem Stands.register (h : Stands uses r waiting) (new : NodeId) :
    ∃ waiting', Stands (uses ++ [.register new]) r waiting' := by
  have hinbox : (after (uses ++ [.register new])).inboxes[r]? =
      if r = (registered uses).length then some ⟨new, false, []⟩ else (after uses).inboxes[r]? := by
    rw [after_concat, inbox_register, (tracks uses).length]
  have howner : (registered (uses ++ [.register new]))[r]? =
      if r = (registered uses).length then some new else (registered uses)[r]? := by
    rw [registered_concat, Use.new?, Option.toList_some, getElem?_concat]
  have hdropped : dropped (uses ++ [.register new]) r = dropped uses r := by
    simp [dropped_concat]
  have hread : readings (uses ++ [.register new]) r = readings uses r := by
    simp [readings_concat, reading?]
  have hmail : mail (uses ++ [.register new]) r = mail uses r := by
    simp [mail_concat, posted?]
  by_cases hr : r = (registered uses).length
  · obtain ⟨hopen, hnone⟩ := unregistered (Nat.le_of_eq hr.symm)
    have hunread := h.read
    rw [hnone, List.map_nil, List.prefix_nil] at hunread
    refine ⟨[], ?_, hread ▸ hmail ▸ h.read, fun _ => ?_⟩
    · rw [hinbox, howner, if_pos hr, if_pos hr, hdropped, hopen, Option.map_some]
    · rw [hread, hmail, hunread, hnone, List.map_nil, List.append_nil]
  · refine ⟨waiting, ?_, hread ▸ hmail ▸ h.read, ?_⟩
    · rw [hinbox, howner, if_neg hr, if_neg hr, hdropped, h.inbox]
    · rw [hread, hmail, hdropped]
      exact h.rest

theorem Stands.dispatch (h : Stands uses r waiting) (source : NodeId) (roster : Roster)
    (target : NodeId) (m : Message) :
    Stands (uses ++ [.dispatch source roster target m]) r
      (waiting ++ (posted? r uses (.dispatch source roster target m)).toList.map Frame.encode) := by
  have hdropped : dropped (uses ++ [.dispatch source roster target m]) r = dropped uses r := by
    simp [dropped_concat]
  have hread : readings (uses ++ [.dispatch source roster target m]) r = readings uses r := by
    simp [readings_concat, reading?]
  refine ⟨?_, ?_, ?_⟩
  · rw [after_concat, (tracks uses).inbox_dispatch, h.inbox, hdropped, registered_concat,
      Option.map_map]
    simp [Use.new?, Function.comp_def]
  · rw [hread, mail_concat, List.map_append]
    exact h.read.trans (List.prefix_append ..)
  · intro hopen
    rw [hread, mail_concat, List.map_append, ← List.append_assoc, h.rest (hdropped ▸ hopen)]

/-- A use that has nothing to do with the inbox. -/
theorem Stands.quiet (h : Stands uses r waiting)
    (hinbox : ((after uses).use u).inboxes[r]? = (after uses).inboxes[r]?)
    (hnew : u.new? = none) (hdropped : dropped (uses ++ [u]) r = dropped uses r)
    (hposted : posted? r uses u = none) (hreading : reading? r uses u = none) :
    Stands (uses ++ [u]) r waiting := by
  have hmail : mail (uses ++ [u]) r = mail uses r := by
    rw [mail_concat, hposted, Option.toList_none, List.append_nil]
  have hread : readings (uses ++ [u]) r = readings uses r := by
    rw [readings_concat, hreading, Option.toList_none, List.append_nil]
  refine ⟨?_, hread ▸ hmail ▸ h.read, ?_⟩
  · rw [after_concat, hinbox, h.inbox, hdropped, registered_concat, hnew, Option.toList_none,
      List.append_nil]
  · rw [hread, hmail, hdropped]
    exact h.rest

theorem Stands.owner {frame : Bytes} (h : Stands uses r (frame :: waiting))
    (hopen : dropped uses r = false) : ∃ id, (registered uses)[r]? = some id := by
  by_contra hnone
  have hlength : (registered uses).length ≤ r := by
    rw [← List.getElem?_eq_none_iff, Option.eq_none_iff_forall_ne_some]
    exact fun id howner => hnone ⟨id, howner⟩
  have hrest := h.rest hopen
  rw [(unregistered hlength).2] at hrest
  simp at hrest

theorem Stands.receive_frame {frame : Bytes} (h : Stands uses r (frame :: waiting))
    (hopen : dropped uses r = false) :
    Stands (uses ++ [.receive r]) r waiting ∧ reading? r uses (.receive r) = some frame := by
  obtain ⟨id, howner⟩ := h.owner hopen
  have hinbox : (after uses).inboxes[r]? = some ⟨id, false, frame :: waiting⟩ := by
    rw [h.inbox, howner, hopen, Option.map_some]
  have hreading : reading? r uses (.receive r) = some frame := by
    simp [reading?, Network.receive, hinbox]
  have hdropped : dropped (uses ++ [.receive r]) r = false := by
    simpa [dropped_concat] using hopen
  have hmail : mail (uses ++ [.receive r]) r = mail uses r := by
    simp [mail_concat, posted?]
  have hrest : readings (uses ++ [.receive r]) r ++ waiting = (mail uses r).map Frame.encode := by
    rw [readings_concat, hreading, ← h.rest hopen]
    simp
  refine ⟨⟨?_, ?_, ?_⟩, hreading⟩
  · rw [after_concat, inbox_receive, hinbox, hdropped, registered_concat]
    simp [Use.new?, howner]
  · rw [hmail, ← hrest]
    exact List.prefix_append ..
  · rw [hmail]
    exact fun _ => hrest

theorem Stands.receive_none (h : Stands uses r waiting)
    (hnone : dropped uses r = true ∨ waiting = []) :
    Stands (uses ++ [.receive r]) r waiting ∧ reading? r uses (.receive r) = none := by
  have hreading : reading? r uses (.receive r) = none := by
    rw [reading?, if_pos rfl, Network.receive, h.inbox]
    cases (registered uses)[r]? with
    | none => rfl
    | some id =>
      cases hdropped : dropped uses r with
      | true => simp
      | false =>
        rw [hnone.resolve_left (by simp [hdropped])]
        by_cases hlatest : (after uses).latest.find? id = some r <;> simp [hlatest]
  have hinbox : ((after uses).use (.receive r)).inboxes[r]? = (after uses).inboxes[r]? := by
    rw [inbox_receive, h.inbox, Option.map_map]
    congr 1
    funext id
    rcases hnone with hdropped | rfl
    · simp [hdropped]
    · simp
  exact ⟨h.quiet hinbox rfl (by simp [dropped_concat]) rfl hreading, hreading⟩

theorem Stands.receive (h : Stands uses r waiting) (i : Nat) :
    ∃ waiting', Stands (uses ++ [.receive i]) r waiting' := by
  by_cases hi : i = r
  · subst hi
    cases hopen : dropped uses i with
    | true => exact ⟨waiting, (h.receive_none (Or.inl hopen)).1⟩
    | false =>
      cases waiting with
      | nil => exact ⟨[], (h.receive_none (Or.inr rfl)).1⟩
      | cons frame rest => exact ⟨rest, (h.receive_frame hopen).1⟩
  · refine ⟨waiting, h.quiet ?_ rfl (by simp [dropped_concat]) rfl (if_neg hi)⟩
    simp [inbox_receive, hi]

theorem Stands.close (h : Stands uses r waiting) (i : Nat) :
    ∃ waiting', Stands (uses ++ [.close i]) r waiting' := by
  by_cases hi : i = r ∧ r < (registered uses).length
  · obtain ⟨rfl, hlt⟩ := hi
    have hdropped : dropped (uses ++ [.close i]) i = true := by
      simp [dropped_concat, hlt]
    have hmail : mail (uses ++ [.close i]) i = mail uses i := by
      simp [mail_concat, posted?]
    have hread : readings (uses ++ [.close i]) i = readings uses i := by
      simp [readings_concat, reading?]
    refine ⟨[], ?_, hread ▸ hmail ▸ h.read, fun hopen => absurd hopen (by simp [hdropped])⟩
    rw [after_concat, inbox_close, h.inbox, hdropped, registered_concat, Option.map_map]
    simp [Use.new?, Function.comp_def]
  · have hdropped : dropped (uses ++ [.close i]) r = dropped uses r := by
      simp only [dropped_concat, Use.close.injEq, Bool.or_eq_left_iff_imp]
      grind
    refine ⟨waiting, h.quiet ?_ rfl hdropped rfl rfl⟩
    rw [inbox_close, h.inbox, Option.map_map]
    by_cases hlt : r < (registered uses).length
    · have hne : i ≠ r := fun hir => hi ⟨hir, hlt⟩
      simp [hne, Function.comp_def]
    · simp [List.getElem?_eq_none (Nat.le_of_not_lt hlt)]

theorem stands (uses : List Use) (r : Nat) : ∃ waiting, Stands uses r waiting := by
  induction uses using List.reverseRecOn with
  | nil => exact ⟨[], rfl, List.nil_prefix, fun _ => rfl⟩
  | append_singleton uses u ih =>
    obtain ⟨waiting, h⟩ := ih
    cases u with
    | register new => exact h.register new
    | dispatch source roster target m => exact ⟨_, h.dispatch source roster target m⟩
    | receive i => exact h.receive i
    | close i => exact h.close i
    | _ => exact ⟨waiting, h.quiet rfl rfl (by simp [dropped_concat]) rfl rfl⟩

/-- As many reads as frames wait get all of them. -/
theorem Stands.drain (h : Stands uses r waiting) (hopen : dropped uses r = false) {k : Nat}
    (hk : waiting.length ≤ k) :
    readings (uses ++ List.replicate k (.receive r)) r = (mail uses r).map Frame.encode := by
  induction k generalizing uses waiting with
  | zero =>
    have hrest := h.rest hopen
    rw [List.length_eq_zero_iff.mp (Nat.le_zero.mp hk), List.append_nil] at hrest
    rw [List.replicate_zero, List.append_nil, hrest]
  | succ k ih =>
    have hopen' : dropped (uses ++ [.receive r]) r = false := by
      simpa [dropped_concat] using hopen
    have hmail : mail (uses ++ [.receive r]) r = mail uses r := by
      simp [mail_concat, posted?]
    rw [List.replicate_succ, List.append_cons, ← hmail]
    cases waiting with
    | nil => exact ih (h.receive_none (Or.inr rfl)).1 hopen' (Nat.zero_le k)
    | cons frame rest => exact ih (h.receive_frame hopen).1 hopen' (Nat.le_of_succ_le_succ hk)

/-- An open inbox in which nothing is found has been read to the end. -/
theorem Stands.waiting_eq_nil (h : Stands uses r waiting) (hopen : dropped uses r = false)
    (hnone : ∀ bs, ((after uses).receive r).2 ≠ .frame bs) : waiting = [] := by
  cases waiting with
  | nil => rfl
  | cons frame rest =>
    have hreading := (h.receive_frame hopen).2
    rw [reading?, if_pos rfl] at hreading
    split at hreading
    · rename_i bs hbs
      exact absurd hbs (hnone bs)
    · exact absurd hreading (by simp)

theorem dispatch_outcome (uses : List Use) (source : NodeId) (m : Message)
    (peer : roster.isPeer target = true) :
    ((after uses).dispatch source roster target m).2 = outcome uses source target := by
  rw [(tracks uses).dispatch peer, outcome]
  split
  · rfl
  · cases hlatest : latest? uses target with
    | none =>
      rw [if_pos (latest?_eq_none.mp hlatest)]
    | some r =>
      have hknown : ¬ target ∉ registered uses := fun hunknown => by
        simp [latest?_eq_none.mpr hunknown] at hlatest
      cases hdropped : dropped uses r <;> simp [hknown, hdropped]

private theorem map_decode_encode (ms : List Message) :
    (ms.map Frame.encode).map Frame.decode = ms.map .ok := by
  rw [List.map_map]
  exact List.map_congr_left fun m _ => Frame.decode_encode_self m

/-- What is read of an inbox is the beginning of its mail, and all of its mail once nothing more is
found, which as many reads as it has messages bring about. Sending to another member ends as
the history says, and where an end is isolated it does nothing. -/
theorem delivery_is_exact (uses : List Use) :
    (∀ r, ∃ taken, (readings uses r).map Frame.decode = taken.map .ok ∧ taken <+: mail uses r ∧
      (dropped uses r = false →
        ((∀ bs, ((after uses).receive r).2 ≠ .frame bs) → taken = mail uses r) ∧
        ∀ k ≥ (mail uses r).length,
          (readings (uses ++ List.replicate k (.receive r)) r).map Frame.decode =
            (mail uses r).map .ok)) ∧
    ∀ source roster target m, roster.isPeer target = true →
      ((after uses).dispatch source roster target m).2 = outcome uses source target ∧
        (cut uses source = true ∨ cut uses target = true →
          (after uses).dispatch source roster target m = (after uses, .ok ())) := by
  constructor
  · intro r
    obtain ⟨waiting, h⟩ := stands uses r
    obtain ⟨taken, hprefix, htaken⟩ := List.prefix_map_iff.mp h.read
    refine ⟨taken, by rw [htaken, map_decode_encode], hprefix, fun hopen => ?_⟩
    have hrest := h.rest hopen
    have hlength := congrArg List.length hrest
    rw [htaken, List.length_append, List.length_map, List.length_map] at hlength
    constructor
    · intro hnone
      rw [h.waiting_eq_nil hopen hnone, List.length_nil, Nat.add_zero] at hlength
      exact hprefix.eq_of_length hlength
    · intro k hk
      rw [h.drain hopen (by omega), map_decode_encode]
  · intro source roster target m peer
    refine ⟨dispatch_outcome uses source m peer, fun hcut => ?_⟩
    rw [(tracks uses).dispatch peer, if_pos (by simpa using hcut)]

end Network

end Elector
