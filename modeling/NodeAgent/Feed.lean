import NodeAgent.Error
/-!
# Feeds

A feed hands every event written to it to each of its subscribers. A subscriber reads at its own
pace out of a buffer of bounded size. One that lets its buffer fill up is let go at the next event,
which it does not get, and so are all subscribers when the feed is closed; what is buffered can
still be read, and after that the subscription has ended for good. No subscriber ever slows down
the feed or another subscriber.
-/

namespace NodeAgent

/-- One subscription of a feed. -/
structure Subscriber (α : Type) where
  /-- The number of the subscription, never given twice. -/
  id : Nat
  /-- Whether the feed still delivers to it. -/
  attached : Bool := true
  /-- The events delivered and not read yet. -/
  unread : List α := []

/-- A source of events with its subscriptions. -/
structure Feed (α : Type) where
  /-- How many unread events a subscription holds; zero counts as one. -/
  buffer : Nat := 32
  closed : Bool := false
  /-- How many subscriptions were asked for so far. -/
  asked : Nat := 0
  /-- The subscriptions that were not dropped. -/
  subscribers : List (Subscriber α) := []

namespace Feed

variable {α : Type}

/-- How many unread events a subscription holds. -/
def room (f : Feed α) : Nat := max 1 f.buffer

/-- The number of subscriptions the feed delivers to. -/
def subscriberCount (f : Feed α) : Nat := (f.subscribers.filter (·.attached)).length

/-- Opens a subscription. A closed feed refuses, and uses up a number all the same. -/
def subscribe (f : Feed α) : Except StreamError Nat × Feed α :=
  let f' := { f with asked := f.asked + 1 }
  if f.closed then (.error .handlerClosed, f')
  else (.ok f.asked, { f' with subscribers := f.subscribers ++ [⟨f.asked, true, []⟩] })

/-- Whether a subscription takes an event now. -/
def takes (f : Feed α) (s : Subscriber α) : Bool := s.attached && s.unread.length < f.room

/-- Delivers an event and says to how many. A subscription whose buffer is full is let go. -/
def write (f : Feed α) (event : α) : Nat × Feed α :=
  ((f.subscribers.filter f.takes).length,
    { f with
      subscribers := f.subscribers.map fun s ↦
        if f.takes s then { s with unread := s.unread ++ [event] }
        else { s with attached := false } })

/-- Refuses new subscriptions and lets every open one go. -/
def close (f : Feed α) : Feed α :=
  { f with closed := true, subscribers := f.subscribers.map fun s ↦ { s with attached := false } }

/-- Accepts subscriptions again. -/
def start (f : Feed α) : Feed α := { f with closed := false }

/-- The subscription of a number. -/
def find? (f : Feed α) (id : Nat) : Option (Subscriber α) :=
  f.subscribers.find? fun s ↦ s.id = id

/-- Reads up to `limit` events of a subscription; also says whether its end was seen, which takes
one look past the last event. -/
def read (f : Feed α) (id limit : Nat) : (List α × Bool) × Feed α :=
  match f.find? id with
  | none => (([], true), f)
  | some s =>
    ((s.unread.take limit, !s.attached && s.unread.length < limit),
      { f with
        subscribers := f.subscribers.map fun t ↦
          if t.id = id then { t with unread := t.unread.drop limit } else t })

/-- Drops a subscription. -/
def drop (f : Feed α) (id : Nat) : Feed α :=
  { f with subscribers := f.subscribers.filter fun s ↦ s.id ≠ id }

end Feed

end NodeAgent
