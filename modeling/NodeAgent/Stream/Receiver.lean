import NodeAgent.Stream.Basic
/-!
# Receiving over a connection

A node that is connected over the network does not take its frames one by one: whenever it has none
left, the connection brings everything that is in the channel. What it brought stays there for the
node to read, even if the stream is torn down in between.
-/

namespace NodeAgent

/-- The node's end of a connection. -/
structure Receiver where
  /-- The frames that were brought and not read yet. -/
  fetched : List RequestFrame := []

namespace Receiver

/-- Takes up to `count` frames out of the channel. -/
def fetch (s : Stream) : (count : Nat) → List RequestFrame × Stream
  | 0 => ([], s)
  | count + 1 =>
    match s.next with
    | (.frame f, s) =>
      let (fs, s) := fetch s count
      (f :: fs, s)
    | (_, s) => ([], s)

/-- Reads what comes next. Frames that still queue for the channel are not brought along. -/
def next (r : Receiver) (s : Stream) : Stream.Outbound × Receiver × Stream :=
  match r.fetched with
  | f :: fs => (.frame f, ⟨fs⟩, s)
  | [] =>
    match fetch s s.channel.length with
    | (f :: fs, s) => (.frame f, ⟨fs⟩, s)
    | ([], s) => (if s.cancelled then .ended else .empty, r, s)

end Receiver

end NodeAgent
