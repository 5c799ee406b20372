import Z80Machine.Log.Event

/-! A log keeps the events that its gate admits, in order. -/

namespace Z80Machine

structure Log where
  gate : Gate := .off
  events : Array Event := #[]

namespace Log

def add (l : Log) (e : Event) : Log :=
  if l.gate.admits e.level then { l with events := l.events.push e } else l

def addAll (l : Log) (es : List Event) : Log :=
  es.foldl add l

def drain (l : Log) : Array Event × Log :=
  (l.events, { l with events := #[] })

end Log

structure Logged (α : Type) where
  value : α
  events : List Event := []

namespace Logged

def map {α β : Type} (f : α → β) (l : Logged α) : Logged β :=
  { value := f l.value, events := l.events }

end Logged

end Z80Machine
