import ComponentDocs.Component.Definition
import ComponentDocs.Fault
import ComponentDocs.Log

/-!
# Outcomes

What a computation comes to, with what happened on the way: what was logged, and what was called of that which a caller
may bring along.

* `Call`, `Event`;
* `Outcome`: a result or a fault, with the events of the way there;
* `Outcome.log`, `Outcome.calls`: the events of one kind;
* `Outcome.report`, `Outcome.call`: steps that leave an event; `Outcome.recover`: another end for a fault.
-/

namespace ComponentDocs

/-! ## Events -/

/-- A call of the resolver, or of the handler at a place of the list for a definition. -/
inductive Call where
  | resolver
  | handler (index : Nat) (definition : Definition)

/-- Something that happens on the way to a result. -/
inductive Event where
  | logged (entry : LogEntry)
  | called (call : Call)

def Event.entry? : Event → Option LogEntry
  | logged entry => some entry
  | called _ => none

def Event.call? : Event → Option Call
  | logged _ => none
  | called call => some call

/-! ## Outcomes -/

/-- A result or a fault, with the events of the way there. -/
@[ext]
structure Outcome (α : Type) where
  result : Except Fault α
  trace : List Event

namespace Outcome

variable {α : Type}

/-- The log entries of the way. -/
def log (outcome : Outcome α) : List LogEntry := outcome.trace.filterMap Event.entry?

/-- The calls of the way. -/
def calls (outcome : Outcome α) : List Call := outcome.trace.filterMap Event.call?

/-- After a fault nothing happens any more. -/
instance : Monad Outcome where
  pure a := ⟨.ok a, []⟩
  bind step next :=
    match step.result with
    | .error fault => ⟨.error fault, step.trace⟩
    | .ok a => ⟨(next a).result, step.trace ++ (next a).trace⟩

/-- A step that leaves no event. -/
instance : MonadLift (Except Fault) Outcome := ⟨fun step => ⟨step, []⟩⟩

def fail (fault : Fault) : Outcome α := ⟨.error fault, []⟩

def report (entries : List LogEntry) : Outcome Unit := ⟨.ok (), entries.map .logged⟩

/-- A step that is noted as a call. -/
def call (call : Call) (step : Except Fault α) : Outcome α := ⟨step, [.called call]⟩

/-- The outcome with another end in place of a fault. -/
def recover (outcome : Outcome α) (f : Fault → Except Fault α) : Outcome α :=
  ⟨tryCatch outcome.result f, outcome.trace⟩

end Outcome

end ComponentDocs
