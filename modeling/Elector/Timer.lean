import Elector.Settings

/-!
# Timers

The one logical timer of a node. Every new schedule and every cancellation starts a new generation,
and a firing carries the generation that scheduled it, so a firing that was already waiting when it
was superseded can be told from a current one. Times are milliseconds on one clock, which also says
when a wait ends.
-/

namespace Elector

inductive AlarmKind
  | election
  | heartbeat
deriving DecidableEq, Repr

structure Firing where
  kind : AlarmKind
  /-- Of 64 bits in the program; here it may grow without end. -/
  generation : Nat
deriving DecidableEq, Repr

structure Alarm where
  firing : Firing
  due : Nat
deriving DecidableEq, Repr

/-- An election delay between the bounds; of a range that is upside down, the lower bound. -/
def electionDelay (least most choice : Nat) : Nat := least + choice % (max least most - least + 1)

/-- An election delay in nanoseconds between bounds in nanoseconds, in whole milliseconds. -/
def electionDelayNanos (least most choice : Nat) : Nat :=
  electionDelay (least / 1000000) (most / 1000000) choice * 1000000

/-- What timers sleep on. It decides when a wait that begins at `now` ends. -/
structure Clock where
  waitEnd : (wait now : Nat) → Nat := fun wait now => now + wait

structure Timer where
  timing : Timing
  draw : Nat → Nat
  clock : Clock := {}
  /-- Like that of a `Firing`, of 64 bits in the program and without end here. -/
  generation : Nat := 0
  alarm : Option Alarm := none

namespace Timer

def nextElectionDelay (t : Timer) : Nat :=
  electionDelay t.timing.electionMin.toNat t.timing.electionMax.toNat (t.draw (t.generation + 1))

def cancel (t : Timer) : Timer := { t with generation := t.generation + 1, alarm := none }

/-- Replaces any alarm by one that is due when a wait of `delay` ends. -/
def schedule (t : Timer) (kind : AlarmKind) (delay now : Nat) : Timer :=
  let t := t.cancel
  let firing : Firing := { kind, generation := t.generation }
  { t with alarm := some { firing, due := t.clock.waitEnd delay now } }

def awaitElection (t : Timer) (now : Nat) : Timer := t.schedule .election t.nextElectionDelay now

def awaitHeartbeat (t : Timer) (now : Nat) : Timer :=
  t.schedule .heartbeat t.timing.heartbeat.toNat now

/-- Whether a firing is of the current generation. -/
def accepts (t : Timer) (f : Firing) : Bool := f.generation = t.generation

/-- The firing of an alarm that is due, with the timer that remains. -/
def ring (t : Timer) (now : Nat) : Option (Firing × Timer) :=
  match t.alarm with
  | some a => if a.due ≤ now then some (a.firing, { t with alarm := none }) else none
  | none => none

end Timer

/-! ## Firings that wait -/

/-- A timer with the queue that its firings go to. -/
structure TimerQueue where
  timer : Option Timer
  clock : Clock := {}
  now : Nat := 0
  waiting : List Firing := []
  accepting : Bool := true

namespace TimerQueue

/-- Lets time pass up to `now`. A firing that is due joins the queue, unless that is closed. -/
def advanceTo (q : TimerQueue) (now : Nat) : TimerQueue :=
  match q.timer.bind (·.ring now) with
  | some (f, t) =>
    { q with timer := some t, now, waiting := if q.accepting then q.waiting ++ [f] else q.waiting }
  | none => { q with now }

/-- Lets a wait of `ms` milliseconds pass. -/
def advance (q : TimerQueue) (ms : Nat) : TimerQueue := q.advanceTo (q.clock.waitEnd ms q.now)

/-- Changes the timer and lets what is due at once happen. -/
def modifyTimer (q : TimerQueue) (change : Timer → Nat → Timer) : TimerQueue :=
  { q with timer := q.timer.map (change · q.now) }.advanceTo q.now

def dropTimer (q : TimerQueue) : TimerQueue := { q with timer := none }

def close (q : TimerQueue) : TimerQueue := { q with accepting := false }

def receive (q : TimerQueue) : Option Firing × TimerQueue :=
  match q.waiting with
  | [] => (none, q)
  | f :: rest => (some f, { q with waiting := rest })

/-- Whether the firing is current, while there is a timer to ask. -/
def accepts? (q : TimerQueue) (f : Firing) : Option Bool := q.timer.map (·.accepts f)

end TimerQueue

end Elector
