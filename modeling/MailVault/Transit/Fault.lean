import MailVault.Store.Call
import MailVault.Transit.Sink

/-!
# Why a stream fails

A stage of a stream fails for want of a message in transit, in the store, or at
the end of the stream.
-/

namespace MailVault
namespace Transit

/-- Why a call on a stage fails. -/
inductive TransitFault where
  /-- No message is open, or its envelope has no metadata. -/
  | missingContext
  | storage (fault : Store.Fault)
  | sink (fault : SinkFault)
deriving DecidableEq

namespace TransitFault

def message : TransitFault → String
  | missingContext => "no message headers found"
  | storage fault => "storage error: " ++ fault.message
  | sink fault => "io error: " ++ fault.message

end TransitFault
end Transit
end MailVault
