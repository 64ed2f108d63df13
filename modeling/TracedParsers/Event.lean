/-!
# Events

What a run reports beside its answer. Three constructions report: a choice that falls back to its
second alternative, a check that refuses a parsed value, and a repetition that stops. Each event has
one text, `Event.message`.
-/

namespace TracedParsers

/-- Something that happened during a run. -/
inductive Event where
  /-- The first alternative of a choice failed, and the second is tried. -/
  | fallback
  /-- A parsed value was refused by its check. -/
  | rejected
  /-- A repetition met a failure after `items` successes. -/
  | stopped (items : Nat)
  deriving DecidableEq

/-- Events in the order in which they happened. -/
abbrev Trace := List Event

/-- The text that describes an event; the count of a repetition is not part of it. -/
def Event.message : Event → String
  | .fallback => "first alternative failed, trying second"
  | .rejected => "parsed value rejected"
  | .stopped _ => "repetition stopped"

end TracedParsers
