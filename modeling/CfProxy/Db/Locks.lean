import CfProxy.Core.World

set_option autoImplicit false

namespace CfProxy.Locks

def lockUnavailable : PyError := .named "LockUnavailable".toList

-- A false answer of `getLock` is a timeout: of `GET_LOCK`, or of the wait for the process-local lock.
def advisoryLock {α : Type} (w : World) (name : Str) (body : Traced Event α) : Traced Event α := do
  let acquired ← Traced.lift (w.getLock name)
  unless acquired do Traced.raise lockUnavailable
  Traced.emit (.locked name)
  body.ensuring do
    Traced.lift (w.releaseLock name)
    Traced.emit (.released name)

def mutationLockName (sha256 : Str → Str) (zoneId recordId : Str) : Str :=
  'm' :: (sha256 (zoneId ++ [':'] ++ recordId)).take 60

end CfProxy.Locks
