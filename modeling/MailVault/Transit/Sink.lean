import MailVault.Bytes

/-!
# Where a stream ends

A sink collects bytes.  It may accept only so many in all, and only so many in
one go; when it is full it either breaks or accepts nothing.  Writing goes on
until all bytes are accepted, and fails on the first of the two.  How often it has
to go on is not seen, so the number of bytes in one go matters only when it is
zero.
-/

namespace MailVault
namespace Transit

/-- Why a sink does not take all bytes. -/
inductive SinkFault where
  | broken
  | acceptsNothing
deriving DecidableEq

namespace SinkFault

def message : SinkFault → String
  | broken => "sink closed"
  | acceptsNothing => "failed to write whole buffer"

end SinkFault

/-- A collector of bytes. -/
structure Sink where
  collected : Bytes := []
  /-- How many bytes are accepted in all. -/
  limit : Option Nat := none
  /-- How many bytes are accepted in one go. -/
  perWrite : Option Nat := none
  /-- Whether a full sink accepts nothing, instead of breaking. -/
  silent : Bool := false

namespace Sink

def isFull (sink : Sink) : Bool :=
  sink.limit.any fun most => decide (most ≤ sink.collected.length)

/-- How many of `count` bytes are accepted until the sink accepts no more. -/
def room (sink : Sink) (count : Nat) : Nat :=
  match sink.perWrite, sink.limit with
  | some 0, _ => 0
  | _, none => count
  | _, some most => min count (most - sink.collected.length)

/-- What happens to a byte that is not accepted. -/
def refusal (sink : Sink) : SinkFault :=
  if sink.isFull && !sink.silent then .broken else .acceptsNothing

/-- Collect bytes, whatever the limits. -/
def collect (sink : Sink) (data : Bytes) : Sink :=
  { sink with collected := sink.collected ++ data }

/-- Write all bytes.  Those before the first that is not accepted are collected. -/
def write (sink : Sink) (data : Bytes) : Except SinkFault Unit × Sink :=
  let room := sink.room data.length
  let filled := sink.collect (data.take room)
  if room < data.length then (.error filled.refusal, filled) else (.ok (), filled)

end Sink
end Transit
end MailVault
