import SchemaEvolution.Diff.Result

/-!
Where events go. A sink takes signals: an event as it is found, and the end of a comparison that
came to its end. Sinks can print, capture, be chained and be counted along; what a sink holds
depends on nothing but the signals that it was sent. Whatever takes signals can be a sink.
-/

namespace SchemaEvolution

inductive Signal where
  | event (event : Event)
  | finished
  deriving DecidableEq, Repr

/-- The signals of a walk. A walk that gave up never finishes. -/
def Diff.Trace.signals (trace : Diff.Trace) : List Signal :=
  trace.events.map Signal.event ++ (if trace.failure?.isNone then [.finished] else [])

class SignalReceiver (σ : Type) where
  receive : σ → Signal → σ

def SignalReceiver.receiveAll {σ : Type} [SignalReceiver σ] (receiver : σ)
    (signals : List Signal) : σ :=
  signals.foldl receive receiver

/-- Prints a line for each event and the totals at each end. While its output refuses text nothing
is written, but the totals go on. -/
structure Printer where
  breakages : Nat
  dangers : Nat
  accepts : Bool
  written : String
  deriving DecidableEq, Repr

namespace Printer

def start : Printer :=
  ⟨0, 0, true, ""⟩

/-- The line of an event; progress is indented. -/
def eventLine (event : Event) : String :=
  (if event.isProgress then "\t" else "") ++ event.text ++ "\n"

def totals (breakages dangers : Nat) : String :=
  s!"\n{breakages} errors\n{dangers} warnings\n\n"

def write (printer : Printer) (text : String) : Printer :=
  if printer.accepts then { printer with written := printer.written ++ text } else printer

def receive (printer : Printer) : Signal → Printer
  | .event event =>
      { printer with
        breakages := printer.breakages + (if event.isBreaking then 1 else 0)
        dangers := printer.dangers + (if event.isDangerous then 1 else 0) }.write (eventLine event)
  | .finished => printer.write (totals printer.breakages printer.dangers)

instance : SignalReceiver Printer :=
  ⟨receive⟩

end Printer

structure Capture where
  events : List Event
  ended : Bool
  deriving DecidableEq, Repr

namespace Capture

def start : Capture :=
  ⟨[], false⟩

def receive (capture : Capture) : Signal → Capture
  | .event event => { capture with events := capture.events ++ [event] }
  | .finished => { capture with ended := true }

instance : SignalReceiver Capture :=
  ⟨receive⟩

def breakageCount (capture : Capture) : Nat :=
  capture.events.countP Event.isBreaking

def dangerCount (capture : Capture) : Nat :=
  capture.events.countP Event.isDangerous

end Capture

/-- The sinks that this library offers, so that one chain can hold both kinds. -/
inductive Sink where
  | printer (state : Printer)
  | capture (state : Capture)
  deriving DecidableEq, Repr

def Sink.receive (sink : Sink) (signal : Signal) : Sink :=
  match sink with
  | printer state => printer (state.receive signal)
  | capture state => capture (state.receive signal)

instance : SignalReceiver Sink :=
  ⟨Sink.receive⟩

/-- A chain of sinks that are sent the same signals, with the count of breaking events among them.
-/
structure CountedChain (σ : Type) where
  breakingCount : Nat
  sinks : List σ
  deriving DecidableEq, Repr

namespace CountedChain

section Receiving

variable {σ : Type} [SignalReceiver σ]

def start (sinks : List σ) : CountedChain σ :=
  ⟨0, sinks⟩

def receive (chain : CountedChain σ) (signal : Signal) : CountedChain σ :=
  { breakingCount :=
      match signal with
      | .event event => chain.breakingCount + (if event.isBreaking then 1 else 0)
      | .finished => chain.breakingCount
    sinks := chain.sinks.map fun sink => SignalReceiver.receive sink signal }

instance : SignalReceiver (CountedChain σ) :=
  ⟨receive⟩

def receiveAll (chain : CountedChain σ) (signals : List Signal) : CountedChain σ :=
  SignalReceiver.receiveAll chain signals

end Receiving

def captures (chain : CountedChain Sink) : List Capture :=
  chain.sinks.filterMap fun
    | .capture state => some state
    | .printer _ => none

def written (chain : CountedChain Sink) : String :=
  String.join (chain.sinks.filterMap fun
    | .printer state => some state.written
    | .capture _ => none)

def mapPrinters (chain : CountedChain Sink) (change : Printer → Printer) : CountedChain Sink :=
  { chain with
    sinks := chain.sinks.map fun
      | .printer state => .printer (change state)
      | .capture state => .capture state }

end CountedChain

namespace Diff

/-- Sends the signals of a comparison to sinks. The count is that of breaking events, unless the
comparison gave up. -/
def report {σ : Type} [SignalReceiver σ] (options : Options) (old new : Document)
    (sinks : List σ) : Except UnresolvedInterface Nat × List σ :=
  let trace := diff options old new
  let chain := (CountedChain.start sinks).receiveAll trace.signals
  match trace.failure? with
  | some error => (.error error, chain.sinks)
  | none => (.ok chain.breakingCount, chain.sinks)

end Diff

end SchemaEvolution
