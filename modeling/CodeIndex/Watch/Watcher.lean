import CodeIndex.Files.Path
import CodeIndex.Numeric.Power
import CodeIndex.Watch.Backoff
import CodeIndex.Watch.Event

/-! The watcher: it keeps one connection to a notification server open, hands on the change events
that arrive, and connects again after growing delays when a session ends.  It runs on a clock in
milliseconds; time passes, and work is done, only when the clock is moved. -/

namespace CodeIndex.Watch

/-- What a session brings: a pause, a frame, or a failure that ends the session. -/
inductive Item where
  | wait (ms : Nat)
  | frame (text : String)
  | failure
  deriving DecidableEq, Repr

/-- What the far side does with a connection attempt: after a delay it refuses it, or it opens a
session with its items, which then closes, or hangs without a sign. -/
structure Session where
  delay : Nat := 0
  refused : Bool := false
  items : List Item := []
  hangs : Bool := false
  deriving DecidableEq, Repr

inductive State where
  | disconnected
  | connecting
  | connected
  /-- Final: no further connections or events. -/
  | destroyed
  deriving DecidableEq, Repr

/-- Times are in nanoseconds. -/
structure Config where
  url : String
  baseInterval : Nat
  maxAttempts : Nat
  deriving DecidableEq, Repr

/-- Where a connection loop stands; times are when it goes on. -/
inductive Phase where
  /-- About to make an attempt. -/
  | starting
  /-- Waiting for the far side to answer an attempt. -/
  | opening (at_ : Nat) (session : Session)
  /-- Taking the next item of an open session. -/
  | reading (at_ : Nat) (items : List Item) (hangs : Bool)
  /-- In an open session that brings nothing any more. -/
  | idle
  /-- Waiting before the next attempt. -/
  | backingOff (at_ : Nat)
  deriving DecidableEq, Repr

/-- When the loop goes on, if it does so by itself. -/
def Phase.wake? : Phase → Option Nat
  | starting => some 0
  | opening t _ => some t
  | reading t _ _ => some t
  | idle => none
  | backingOff t => some t

/-- A bound on the steps that a loop can take before its next attempt, that one included. -/
def Phase.work : Phase → Nat
  | starting => 1
  | opening _ s => s.items.length + 4
  | reading _ items _ => items.length + 3
  | idle => 0
  | backingOff _ => 2

/-- A connection loop that was started and neither finished nor was aborted. -/
structure Loop where
  id : Nat
  phase : Phase
  deriving DecidableEq, Repr

/-- The watcher and what it did: when attempts began, and which events were handed on. -/
structure Watcher where
  config : Config
  /-- The far side's answers to the next attempts; later ones open and stay open without frames. -/
  sessions : List Session
  now : Nat := 0
  state : State := .disconnected
  /-- Sessions that ended since the last one that opened, or since a loop was started.  From the
  33rd in a row on each is followed by a wait of thirty years, so 32 bits hold the count for as long
  as the clock can run. -/
  attempts : Nat := 0
  loops : List Loop := []
  /-- The loop that was started last. -/
  current : Option Nat := none
  /-- Loops that were started so far. -/
  started : Nat := 0
  cancelled : Bool := false
  connects : List Nat := []
  delivered : List Event := []

/-- The event of a frame, if the frame tells of one and the path is not hidden. -/
def accept? (text : String) : Option Event :=
  (Event.ofText? text).filter fun e => !Files.isHidden e.filePath

namespace Watcher

/-- Enters a state, unless the watcher was destroyed. -/
def enter? (w : Watcher) (s : State) : Option Watcher :=
  if w.state = .destroyed then none else some { w with state := s }

/-- Without the loop that was started last. -/
def abortCurrent (w : Watcher) : Watcher :=
  { w with loops := w.loops.filter fun l => some l.id ≠ w.current, current := none }

/-- Starts a loop, in place of one that waits for its next attempt.  Nothing happens while a
connection is open or being opened, or when the watcher was destroyed. -/
def connect (w : Watcher) : Watcher :=
  if w.state = .disconnected then
    let w := w.abortCurrent
    { w with
      state := .connecting
      attempts := 0
      loops := w.loops ++ [⟨w.started, .starting⟩]
      current := some w.started
      started := w.started + 1 }
  else w

def destroy (w : Watcher) : Watcher :=
  if w.state = .destroyed then w
  else { w.abortCurrent with state := .destroyed, cancelled := true }

/-- Cancels the loops when the watcher goes out of use. -/
def drop (w : Watcher) : Watcher := { w with cancelled := true }

/-- Hands the event of a frame on, if it is accepted. -/
def dispatch (w : Watcher) (text : String) : Watcher :=
  match accept? text with
  | some e => if w.cancelled then w else { w with delivered := w.delivered ++ [e] }
  | none => w

/-- Puts a loop back with its new phase. -/
def resume (w : Watcher) (id : Nat) (phase : Phase) : Watcher :=
  { w with loops := w.loops ++ [⟨id, phase⟩] }

/-- The longest time that the clock can be asked to wait for, in nanoseconds; for longer ones it
waits thirty years. -/
def longestWait : Nat := 0x8000000000000000 * second

def thirtyYears : Nat := 86400 * 365 * 30 * 1000

/-- A time in nanoseconds as the milliseconds that the clock waits. -/
def clockTime (ns : Nat) : Nat :=
  if ns < longestWait then (ns + 999999) / 1000000 else thirtyYears

/-- The end of a session: the loop waits for its next attempt, or finishes after the last one. -/
def sessionEnded (w : Watcher) (id : Nat) : Watcher :=
  match w.enter? .disconnected with
  | none => w
  | some w =>
    let attempt := w.attempts + 1
    let w := { w with attempts := attempt }
    if attempt > w.config.maxAttempts then w
    else w.resume id (.backingOff (w.now + clockTime (backoff w.config.baseInterval attempt)))

def sessionOpened (w : Watcher) (id : Nat) (phase : Phase) : Watcher :=
  match w.enter? .connected with
  | none => w
  | some w => { w with attempts := 0 }.resume id phase

def attempt (w : Watcher) (id : Nat) : Watcher :=
  match w.enter? .connecting with
  | none => w
  | some w =>
    let w := { w with connects := w.connects ++ [w.now] }
    match w.sessions with
    | [] => w.sessionOpened id .idle
    | s :: rest => { w with sessions := rest }.resume id (.opening (w.now + s.delay) s)

/-- A loop that was taken out goes on by one step, and is put back if it does not finish. -/
def goOn (w : Watcher) (l : Loop) : Watcher :=
  match l.phase with
  | .starting => w.attempt l.id
  | .backingOff _ => w.attempt l.id
  | .opening _ s =>
    if s.refused then w.sessionEnded l.id
    else w.sessionOpened l.id (.reading w.now s.items s.hangs)
  | .reading _ [] hangs => if hangs then w.resume l.id .idle else w.sessionEnded l.id
  | .reading _ (.wait ms :: rest) hangs => w.resume l.id (.reading (w.now + ms) rest hangs)
  | .reading _ (.frame text :: rest) hangs =>
    (w.dispatch text).resume l.id (.reading w.now rest hangs)
  | .reading _ (.failure :: _) _ => w.sessionEnded l.id
  | .idle => w

/-- A loop that was taken out goes on, unless the loops are cancelled. -/
def step (w : Watcher) (l : Loop) : Watcher := if w.cancelled then w else w.goOn l

/-- The one of two loops, with their times, that goes on first; the former if both go on at once. -/
def sooner : Option (Nat × Loop) → Nat × Loop → Option (Nat × Loop)
  | none, next => some next
  | some first, next => if next.1 < first.1 then some next else some first

/-- The loop that goes on first, with its time; of several, the one listed first. -/
def due? (w : Watcher) : Option (Nat × Loop) :=
  (w.loops.filterMap fun l => l.phase.wake?.map (·, l)).foldl sooner none

/-- Takes out a loop when its time has come. -/
def takeUp (w : Watcher) (t : Nat) (l : Loop) : Watcher :=
  { w with now := max w.now t, loops := w.loops.erase l }

/-- The next step that is due at `limit` or before, if there is one. -/
def next? (w : Watcher) (limit : Nat) : Option Watcher :=
  match w.due? with
  | none => none
  | some (t, l) => if max w.now t ≤ limit then some ((w.takeUp t l).step l) else none

/-- A bound on the steps that are left. -/
def work (w : Watcher) : Nat :=
  Numeric.total (·.phase.work) w.loops + Numeric.total (·.items.length + 4) w.sessions

/-- Takes the steps that are due at `limit` or before, at most `count`. -/
def runSteps (limit : Nat) : Nat → Watcher → Watcher
  | 0, w => w
  | count + 1, w =>
    match w.next? limit with
    | none => w
    | some w => runSteps limit count w

/-- Moves the clock and does all that is due on the way, the new time included. -/
def advance (w : Watcher) (ms : Nat) : Watcher :=
  { runSteps (w.now + ms) w.work w with now := w.now + ms }

end Watcher

end CodeIndex.Watch
