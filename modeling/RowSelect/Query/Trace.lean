import RowSelect.Failure

/-!
What a query tells about its run: the stretches of work it opens and closes, events, and counts of
rows. A run emits all its signals; `log` keeps those at a level of detail or above it.
-/

set_option autoImplicit false

namespace RowSelect.Query

inductive Level where
  | trace
  | debug
  | info
  deriving DecidableEq, Repr

namespace Level

def name : Level → String
  | trace => "TRACE"
  | debug => "DEBUG"
  | info => "INFO"

def rank : Level → Nat
  | trace => 0
  | debug => 1
  | info => 2

def shownAt (l least : Level) : Bool := least.rank ≤ l.rank

end Level

inductive Span where
  | query (text : String)
  | scan (table : String)
  deriving DecidableEq, Repr

namespace Span

def name : Span → String
  | query _ => "db.query"
  | scan _ => "db.scan"

def level : Span → Level
  | query _ => .debug
  | scan _ => .trace

def fields : Span → Fields String
  | query text => [
    ("otel.name", "select"), ("otel.kind", "internal"), ("db.system.name", "memory"),
    ("db.operation.name", "select"), ("db.query.text", text)]
  | scan table => [
    ("otel.name", "scan " ++ table), ("otel.kind", "internal"), ("db.system.name", "memory"),
    ("db.operation.name", "scan"), ("db.collection.name", table)]

end Span

inductive Event where
  | parsed (columns tables : Nat) (filtered : Bool)
  | associated (tables columns : Nat)
  | planned (tables : Nat) (filtered : Bool)
  | rowPassedOver (index : Nat) (failure : Failure)
  | executed (rows : Nat)
  | rejected (failure : Failure)
  deriving DecidableEq, Repr

namespace Event

def level : Event → Level
  | rowPassedOver .. => .trace
  | _ => .debug

def fields : Event → Fields String
  | parsed columns tables filtered => [
    ("message", "Parsed statement"), ("columns", toString columns), ("tables", toString tables),
    ("filtered", toString filtered)]
  | associated tables columns => [
    ("message", "Associated columns"), ("tables", toString tables), ("columns", toString columns)]
  | planned tables filtered => [
    ("message", "Query planned"), ("tables", toString tables), ("filtered", toString filtered)]
  | rowPassedOver index failure => [
    ("message", "Row treated as non-matching"), ("index", toString index),
    ("error", failure.message)]
  | executed rows => [("message", "Query executed"), ("rows", toString rows)]
  | rejected failure => [("message", "Query rejected"), ("error", failure.message)]

end Event

inductive Signal where
  | enter (span : Span)
  | exit
  | event (e : Event)
  | returned (rows : Nat)
  deriving DecidableEq, Repr

inductive LogEntry where
  | opened (span : Span)
  | closed (span : Span)
  | event (current : Option Span) (e : Event)
  | recorded (current : Span) (rows : Nat)
  deriving DecidableEq, Repr

def currentSpan (level : Level) (spans : List Span) : Option Span :=
  spans.find? fun s => s.level.shownAt level

/-- The log of a run from a point on, the spans open there listed from the inside. A count belongs
to the current span, whichever it was meant for. -/
def logFrom (level : Level) (spans : List Span) : List Signal → List LogEntry
  | [] => []
  | .enter s :: rest =>
    if s.level.shownAt level then .opened s :: logFrom level (s :: spans) rest
    else logFrom level (s :: spans) rest
  | .exit :: rest =>
    match spans with
    | [] => logFrom level [] rest
    | s :: outer =>
      if s.level.shownAt level then .closed s :: logFrom level outer rest
      else logFrom level outer rest
  | .event e :: rest =>
    if e.level.shownAt level then .event (currentSpan level spans) e :: logFrom level spans rest
    else logFrom level spans rest
  | .returned n :: rest =>
    match currentSpan level spans with
    | some s => .recorded s n :: logFrom level spans rest
    | none => logFrom level spans rest

def log (level : Level) (signals : List Signal) : List LogEntry := logFrom level [] signals

structure Traced (α : Type) where
  signals : List Signal
  outcome : Except Failure α
  deriving Repr

namespace Traced

variable {α β : Type}

def ofExcept (outcome : Except Failure α) : Traced α := ⟨[], outcome⟩

def emit (s : Signal) : Traced Unit := ⟨[s], .ok ()⟩

def emitAll (ss : List Signal) : Traced Unit := ⟨ss, .ok ()⟩

def bind (x : Traced α) (f : α → Traced β) : Traced β :=
  match x.outcome with
  | .ok a => ⟨x.signals ++ (f a).signals, (f a).outcome⟩
  | .error e => ⟨x.signals, .error e⟩

instance : Monad Traced where
  pure a := ofExcept (.ok a)
  bind := bind

/-- Work inside a span, which is left whatever the outcome. -/
def within (span : Span) (x : Traced α) : Traced α :=
  ⟨.enter span :: x.signals ++ [.exit], x.outcome⟩

end Traced

end RowSelect.Query
