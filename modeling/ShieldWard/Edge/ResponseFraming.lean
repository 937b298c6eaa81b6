import ShieldWard.Edge.ProxyTheorems

/-!
# The headers of a client response

`createClientResponse` deletes what concerns one hop and what the upstream nominates, and then
drops the length of an encoded body, since the platform has decoded it. The second rewrite looks
at what the first has left: an upstream that nominates `content-encoding` hides it, and the
length of the encoded body is passed on.
-/

namespace ShieldWard.Edge

open Ecma Headers

/-- A status and a status text that a response can be made with, and no body where the status has
none. -/
def Representable (received : UpstreamResponse) : Prop :=
  200 ≤ received.status ∧ received.status ≤ 599 ∧ isReasonPhrase received.statusText = true ∧
    ¬(received.hasBody = true ∧ received.status ∈ [204, 205, 304])

end ShieldWard.Edge
