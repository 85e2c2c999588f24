import CfProxy.Main.Bulk

set_option autoImplicit false

namespace CfProxy.Main

open Envelopes ProxyDns Routing Client Authorizer Locks Traced
open ManagementApi (Failure Reply)

def Enveloped (response : ClientResponse) : Prop := CfEnvelope response.content

variable {w : World} {context : ProxyAuthContext} {request : Request}

-- A newline at the end of a path is passed over, and one inside ends what the catch-all takes.
example : Routed routes "GET".toList "/api/v1/auth/me\n".toList := by decide +kernel
example : ¬Routed routes "GET".toList "/client/v4/a\nb".toList := by decide +kernel

end CfProxy.Main
