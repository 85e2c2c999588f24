import CfProxy.Main.Mediation
import CfProxy.Upstream.Origin

set_option autoImplicit false

namespace CfProxy.Main

open Text Client ProxyDns Machine

inductive ClientUse
  | get (upstreamBaseUrl : Str)
  | close

-- The process's client through its life, under settings that may change: the base URL that it was made with.
def cfClient (u : Unicode) (checkNetloc : Str → Except PyError Unit) : System (Option Str) ClientUse where
  init := (· = none)
  step client
    | .get upstreamBaseUrl => match getCfClient u checkNetloc client upstreamBaseUrl with
      | .ok baseUrl => some (some baseUrl)
      | .error _ => some client
    | .close => some none

def Trusted (client : Option Str) : Prop := ∀ baseUrl ∈ client, Pinned baseUrl

section

variable {u : Unicode} {checkNetloc : Str → Except PyError Unit} {client : Option Str}

theorem getCfClient_pinned (kelvin : OnlyKelvin u) (trusted : Trusted client) {upstreamBaseUrl baseUrl : Str}
    (got : getCfClient u checkNetloc client upstreamBaseUrl = .ok baseUrl) : Pinned baseUrl := by
  unfold getCfClient at got
  split at got
  · cases got
    exact trusted _ rfl
  · obtain ⟨_, asserted, same⟩ := Except.bind_eq_ok.mp got
    cases same
    exact assertPinnedOrigin_ok kelvin asserted

theorem reachable_trusted (kelvin : OnlyKelvin u)
    (reached : (cfClient u checkNetloc).Reachable System.unrestricted client) : Trusted client := by
  refine reached.invariant ?_ ?_
  · rintro state rfl baseUrl ⟨⟩
  · intro state use after trusted _ stepped
    cases use with
    | get upstreamBaseUrl =>
      simp only [cfClient] at stepped
      split at stepped
      · rename_i baseUrl got
        cases stepped
        rintro _ ⟨⟩
        exact getCfClient_pinned kelvin trusted got
      · cases stepped
        exact trusted
    | close =>
      cases stepped
      rintro baseUrl ⟨⟩

end

section

variable {w : World} {context : ProxyAuthContext} {request : Request} {backend : Backend} {method path : Str}
variable {sent : UpstreamRequest}

theorem zonePages_sentTo {params : List (Str × Json)} {authHeaders : Headers} {fuel page : Nat} {zones : List Json} :
    Traced.Every (SentTo zonesPath) (zonePages w params authHeaders fuel page zones) := by
  induction fuel generalizing page zones with
  | zero => exact .lift _
  | succ fuel ih =>
    refine .bind forwardRequest_sentTo fun response _ => .bind (.lift _) fun body _ => ?_
    split
    · exact .pure _
    · refine .bind (.lift _) fun success _ => ?_
      split
      · exact .pure _
      · refine .bind (.lift _) fun read _ => ?_
        dsimp only
        split
        · exact .pure _
        · exact ih

theorem listZones_sentTo {fuel : Nat} :
    Traced.Every (SentTo zonesPath) (ProxyDns.listZones w fuel context request) := by
  refine .bind (.lift _) fun paging _ => .bind (.lift _) fun authHeaders _ => ?_
  exact .bind zonePages_sentTo fun _ _ => .bind (.lift _) fun _ _ => .pure _

theorem sent_rooted (proxy : isProxyPath path = true) (sends : .sent sent ∈ (respond backend method path request).1) :
    ∃ rest, sent.path = '/' :: rest := by
  obtain ⟨context, -, ⟨-, whole⟩ | ⟨zoneId, recordId, operation, -, -, -, whole⟩⟩ := respond_events proxy sends
  · rw [whole] at sends
    exact ⟨zonesPath.tail, (listZones_sentTo _ sends).trans (by decide)⟩
  · rw [whole] at sends
    exact ⟨_, serve_sentTo operation _ sends⟩

theorem sent_to_origin {u : Unicode} {checkNetloc : Str → Except PyError Unit} {client : Option Str}
    (kelvin : OnlyKelvin u) (reached : (cfClient u checkNetloc).Reachable System.unrestricted client)
    {upstreamBaseUrl baseUrl : Str} (got : getCfClient u checkNetloc client upstreamBaseUrl = .ok baseUrl)
    (proxy : isProxyPath path = true) (sends : .sent sent ∈ (respond backend method path request).1) :
    Pinned (baseUrl ++ sent.path) := by
  obtain ⟨rest, rooted⟩ := sent_rooted proxy sends
  rw [rooted]
  exact (getCfClient_pinned kelvin (reachable_trusted kelvin reached) got).append rest

end

section Example

theorem removal_to_origin : Pinned (allowedUpstreamOrigin ++ removal.path) := by
  have started : (cfClient .asciiOnly fun _ => .ok ()).Reachable System.unrestricted none := .start rfl
  have got : getCfClient .asciiOnly (fun _ => .ok ()) none allowedUpstreamOrigin = .ok allowedUpstreamOrigin := by rfl
  exact sent_to_origin asciiOnly_kelvin started got (by decide) removal_sent

end Example

end CfProxy.Main
