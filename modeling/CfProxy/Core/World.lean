import CfProxy.Shared.Text
import CfProxy.Shared.Traced

set_option autoImplicit false

namespace CfProxy

abbrev Bytes := List UInt8
abbrev Headers := List (Str × Str)

structure UpstreamRequest where
  method : Str
  path : Str
  headers : Headers
  params : Option (List (Str × Json))
  content : Option Bytes

structure Response where
  status : Nat
  json : Except PyError Json

structure AuditRow where
  userId : Str
  scopedTokenId : Str
  tokenPrefix : Str
  method : Str
  path : Str
  allow : Bool
  zoneId : Str
  recordId : Option Str
  recordName : Json
  recordType : Json
  preImage : Json
  postImage : Json
  denyReason : Option Str
  upstreamStatus : Option Nat
  clientIp : Option Str

-- What a request visibly does. `decided` marks the moment of the authorization decision.
inductive Event
  | sent (request : UpstreamRequest)
  | received (request : UpstreamRequest) (status : Nat)
  | locked (name : Str)
  | released (name : Str)
  | decided (allowed : Bool)
  | audited (row : AuditRow)

-- The components a request talks to, as far as it sees them: the outcome of resolving the credential's headers, the
-- upstream replies, the database's lock functions and SHA-256 in hex.
structure World where
  unicode : Text.Unicode
  upstreamAuth : Except PyError Headers
  reply : UpstreamRequest → Except PyError Response
  connect : Except PyError Unit
  getLock : Str → Except PyError Bool
  releaseLock : Str → Except PyError Unit
  sha256 : Str → Str

def World.repliedBy (w : World) (reply : UpstreamRequest → Except PyError Response) : World := { w with reply }

@[simp] theorem World.repliedBy_unicode (w : World) (reply : UpstreamRequest → Except PyError Response) :
    (w.repliedBy reply).unicode = w.unicode := rfl

@[simp] theorem World.repliedBy_upstreamAuth (w : World) (reply : UpstreamRequest → Except PyError Response) :
    (w.repliedBy reply).upstreamAuth = w.upstreamAuth := rfl

def World.answering (reply : UpstreamRequest → Except PyError Response) : World where
  unicode := .asciiOnly
  upstreamAuth := .ok []
  reply
  connect := .ok ()
  getLock _ := .ok true
  releaseLock _ := .ok ()
  sha256 := id

end CfProxy
