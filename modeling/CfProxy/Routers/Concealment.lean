import CfProxy.Routers.Management
import CfProxy.Services.SecretRuns

set_option autoImplicit false

namespace CfProxy.ManagementApi

open Models Machine
open Accounts (Account)

section Secrets

variable {r : Rendering} {d : Deployment} {T : Str → Str → Prop} {row otherRow : UpstreamCredential}

theorem credentialResponseData_same (rows : SameRow d T row otherRow) :
    credentialResponseData r otherRow = credentialResponseData r row := by
  rw [rows.shape]
  rfl

theorem responseData_same (r : Rendering) (command : Command) {answer otherAnswer : Answer}
    (same : SameAnswer d T answer otherAnswer) :
    responseData r command otherAnswer = responseData r command answer := by
  cases same with
  | credential rows => exact credentialResponseData_same rows
  | credentials rows =>
    have mapped := rows.map_eq (f := credentialResponseData r) (g := credentialResponseData r) fun row other both =>
      (credentialResponseData_same both).symm
    simp only [responseData, mapped]
  | same => rfl

theorem reply_same {command other : Command} (commands : TwinCommand T command other)
    {outcome otherOutcome : Except PyError Answer} (same : Related (SameAnswer d T) outcome otherOutcome) :
    reply r other otherOutcome = reply r command outcome := by
  have shape : success other = success command ∧ other.target = command.target ∧
      catchesValueError other = catchesValueError command ∧ isRotation other = isRotation command := by
    cases commands <;> exact ⟨rfl, rfl, rfl, rfl⟩
  obtain ⟨succeeds, targets, catches, rotates⟩ := shape
  cases same with
  | ok answers =>
    have data := responseData_same r command answers
    have rendered (answer : Answer) : responseData r other answer = responseData r command answer := by
      cases answer <;> simp only [responseData, rotates]
    simp only [reply, succeeds, rendered, data]
  | error raised => simp only [reply, targets, catches]

-- No secret of a credential can be told from the responses and their messages: two runs whose registrations differ in
-- secrets that neither the upstream nor the issuer nor the HTTP client tells apart answer every command alike.
theorem secrets_unseen (portal : Portal) (reflexive : ∀ secret, T secret secret) {foreignKeys : Bool}
    {labels others : List Label} (twinLabels : List.Forall₂ (TwinLabel portal.d T) labels others)
    {first after otherAfter : Site} (initial : (site portal.d foreignKeys).init first)
    (ran : (site portal.d foreignKeys).run first labels = some after)
    (otherRan : (site portal.d foreignKeys).run first others = some otherAfter)
    (twins : Twins portal.d portal.env T) (user : Account) {command other : Command}
    (commands : TwinCommand T command other) :
    Portal.command { portal with store := otherAfter.store } user other =
      Portal.command { portal with store := after.store } user command := by
  have stores := run_same reflexive twinLabels (start_same initial) ran otherRan
  have managed : Related (SameAnswer portal.d T) (manage portal.d portal.env user.id command after.store).1
      (manage portal.d portal.env user.id other otherAfter.store).1 :=
    (manage_same twins commands _ _ stores).1
  have replies : reply portal.rendering other (manage portal.d portal.env user.id other otherAfter.store).1 =
      reply portal.rendering command (manage portal.d portal.env user.id command after.store).1 :=
    reply_same commands managed
  exact congrArg (Except.mapError Failure.unhandled) replies

section Example

-- Two tokens are pasted that the upstream accepts alike.

def accepting : Env := { drawing ['c'] TokenPlane.issued with
  reply := fun _ => .ok ⟨200, .ok (.obj [("success".toList, .bool true), (Client.resultKey, .obj [])])⟩ }

def pasting (apiToken : Str) : Label :=
  .manage ['u'] (.register ['l'] Client.tokenType (some apiToken) none none) accepting

theorem accepting_twins : Twins plainDeployment accepting fun _ _ => True :=
  ⟨fun _ => trivial, fun _ _ _ _ => rfl, fun _ _ _ _ _ => rfl, fun _ _ _ => rfl⟩

theorem pasting_twins : TwinLabel plainDeployment (fun _ _ => True) (pasting ['s']) (pasting ['t']) :=
  .manage _ accepting_twins (.register _ _ none ⟨by simp, trivial⟩ ⟨Iff.rfl, trivial⟩)

def pastedPortal : Portal := { unknownPortal with env := accepting }

def someone : Account := { id := ['u'], cfSub := none, email := none, authProvider := [] }

theorem pasted_tokens_unseen : ∃ after otherAfter : Site,
    (site plainDeployment true).run { store := { db := .empty true } } [pasting ['s']] = some after ∧
    (site plainDeployment true).run { store := { db := .empty true } } [pasting ['t']] = some otherAfter ∧
    after.store.db.credentials ≠ otherAfter.store.db.credentials ∧
    Portal.command { pastedPortal with store := otherAfter.store } someone (.verify ['c']) =
      Portal.command { pastedPortal with store := after.store } someone (.verify ['c']) := by
  have ran : ((site plainDeployment true).run { store := { db := .empty true } } [pasting ['s']]).map
      (fun c => c.store.db.credentials.map (·.secretEnc)) = some [some ['s']] := by
    decide +kernel
  have otherRan : ((site plainDeployment true).run { store := { db := .empty true } } [pasting ['t']]).map
      (fun c => c.store.db.credentials.map (·.secretEnc)) = some [some ['t']] := by
    decide +kernel
  obtain ⟨after, runs, shown⟩ := Option.map_eq_some_iff.mp ran
  obtain ⟨otherAfter, otherRuns, otherShown⟩ := Option.map_eq_some_iff.mp otherRan
  refine ⟨after, otherAfter, runs, otherRuns, fun same => ?_,
    secrets_unseen pastedPortal (fun _ => trivial) (.cons pasting_twins .nil) rfl runs otherRuns accepting_twins someone
      (.same (.verify ['c']))⟩
  rw [same, otherShown] at shown
  cases shown

end Example

end Secrets

end CfProxy.ManagementApi
