import CfProxy.Shared.Relational
import CfProxy.Upstream.Client

set_option autoImplicit false

namespace CfProxy.Client

open Text

def SameButHeaders (request other : UpstreamRequest) : Prop := other = { request with headers := other.headers }

def Interchangeable (w : World) (authHeaders others : Headers) : Prop :=
  ∀ request : UpstreamRequest, w.reply { request with headers := forwardedHeaders w.unicode none authHeaders } =
    w.reply { request with headers := forwardedHeaders w.unicode none others }

inductive SameEvent : Event → Event → Prop
  | sent {request other : UpstreamRequest} (same : SameButHeaders request other) : SameEvent (.sent request) (.sent other)
  | received {request other : UpstreamRequest} (same : SameButHeaders request other) (status : Nat) :
      SameEvent (.received request status) (.received other status)
  | locked (name : Str) : SameEvent (.locked name) (.locked name)
  | released (name : Str) : SameEvent (.released name) (.released name)
  | decided (allowed : Bool) : SameEvent (.decided allowed) (.decided allowed)
  | audited (row : AuditRow) : SameEvent (.audited row) (.audited row)

abbrev Blind {α : Type} (x y : Traced Event α) : Prop := Traced.Alike SameEvent Eq x y

def withAuth (w : World) (auth : Except PyError Headers) : World := { w with upstreamAuth := auth }

variable {w : World} {auth : Except PyError Headers} {authHeaders others : Headers}

theorem forwardRequest_blind (alike : Interchangeable w authHeaders others) {method path : Str}
    {params : Option (List (Str × Json))} {content : Option Bytes} :
    Blind (forwardRequest w method path none params content authHeaders)
      (forwardRequest (withAuth w auth) method path none params content others) := by
  let sent (chosen : Headers) : UpstreamRequest :=
    { method, path, headers := forwardedHeaders w.unicode none chosen, params, content }
  have same : SameButHeaders (sent authHeaders) (sent others) := rfl
  have replied : w.reply (sent authHeaders) = w.reply (sent others) := alike (sent [])
  refine .bind_eq (.emit (.sent same)) fun _ => .bind_eq (.lift (.of_eq replied)) fun response => ?_
  exact .bind_eq (.emit (.received same response.status)) fun _ => .pure rfl

theorem fetchCfRecord_blind (alike : Interchangeable w authHeaders others) {zoneId recordId : Str} :
    Blind (fetchCfRecord w zoneId recordId authHeaders) (fetchCfRecord (withAuth w auth) zoneId recordId others) := by
  refine (forwardRequest_blind alike).bind_eq fun response => ?_
  split
  · exact .pure rfl
  · exact .lift_bind fun _ => .lift_bind fun _ => .lift (.refl _)

theorem listPages_blind (auth : Except PyError Headers) (alike : Interchangeable w authHeaders others) {zoneId : Str}
    {params : List (Str × Json)} {fuel page : Nat} {records : List Json} :
    Blind (listPages w zoneId params authHeaders fuel page records)
      (listPages (withAuth w auth) zoneId params others fuel page records) := by
  induction fuel generalizing page records with
  | zero => exact .raise stillRunning
  | succ fuel ih =>
    refine (forwardRequest_blind alike).bind_eq fun response => ?_
    refine .lift_bind fun _ => .lift_bind fun _ => .lift_bind fun read => ?_
    dsimp only
    split
    · exact .pure rfl
    · exact ih

end CfProxy.Client
