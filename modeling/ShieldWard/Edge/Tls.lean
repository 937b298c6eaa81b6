import ShieldWard.Lib.Bytes
import ShieldWard.Lib.Ecma
import ShieldWard.Lib.System

/-!
# Rotation of TLS material

`edge/src/tls.ts`: the reloader that keeps the last material that was loaded, validated and
applied. A call of `#reloadOnce` is a record with the stage that it has reached, and a promise is
the place of its call, so the callers that share a promise share the place. What `load`,
`validate`, `apply` and the observers do is told with the action that it belongs to.
-/

namespace ShieldWard.Edge

open Bytes

/-- Material with the given fields: `Object.values` of it, in the order of the fields. -/
structure TlsMaterial (fields : List String) where
  values : List String
  complete : values.length = fields.length
deriving DecidableEq

/-- What `fingerprintMaterial` updates the hash with: every value is followed by a NUL. -/
def TlsMaterial.hashed {fields : List String} (material : TlsMaterial fields) : Bytes :=
  material.values.flatMap fun value => utf8 value ++ utf8 "\x00"

def fingerprintMaterial {fields : List String} (sha256 : Bytes → Bytes)
    (material : TlsMaterial fields) : String :=
  hex (sha256 material.hashed)

inductive TlsReloadResult
  | updated
  | unchanged
deriving DecidableEq

/-- Where a call of `#reloadOnce` stands. -/
inductive ReloadStage (fields : List String)
  /-- Awaits `load`. -/
  | loading
  /-- Awaits `apply`. -/
  | applying (material : TlsMaterial fields) (fingerprint : String)
  | settled (result : Except String TlsReloadResult)

/-- `load` or `apply` is in progress. -/
def ReloadStage.pending {fields : List String} : ReloadStage fields → Bool
  | .loading | .applying _ _ => true
  | .settled _ => false

/-- A call of `#reloadOnce`, with what `load`, `validate` and `apply` have answered it and how often
it has called `apply`. -/
structure Reload (fields : List String) where
  stage : ReloadStage fields
  loaded : Option (Except String (TlsMaterial fields))
  validated : Option (Except String Unit)
  applied : Option (Except String Unit)
  applications : ℕ

/-- A call of `reload`: the promise that it got, and what it has been told. The timer's calls
report a rejection to `onError`. -/
structure ReloadCaller where
  operation : ℕ
  byTimer : Bool
  told : Option (Except String TlsReloadResult)

structure TlsMaterialReloader (fields : List String) where
  current : TlsMaterial fields
  fingerprint : String
  /-- The promise of `#reloadInFlight`. -/
  reloadInFlight : Option ℕ
  /-- The calls of `#reloadOnce` so far, oldest first. -/
  reloads : List (Reload fields)
  callers : List ReloadCaller
  /-- The calls of `onReload` and `onError`. -/
  notifications : ℕ
  reports : List String

namespace TlsMaterialReloader

/-- The check of the constructor. -/
def checkInterval (intervalMs : Ecma.Number) : Except String Unit :=
  if !Ecma.isSafeInteger intervalMs || intervalMs ≤ 0 then
    .error "TLS reload interval must be a positive integer"
  else .ok ()

variable {fields : List String} (sha256 : Bytes → Bytes)

/-- After `initialize`. -/
def initialized (material : TlsMaterial fields) : TlsMaterialReloader fields where
  current := material
  fingerprint := fingerprintMaterial sha256 material
  reloadInFlight := none
  reloads := []
  callers := []
  notifications := 0
  reports := []

/-- What an observer throws is caught. -/
def observe (reloader : TlsMaterialReloader fields) (observer : Except String Unit) :
    TlsMaterialReloader fields :=
  match observer with
  | .ok () => reloader
  | .error _ => reloader

/-- `reload`: the promise in flight, or that of a new call of `#reloadOnce`. -/
def reload (reloader : TlsMaterialReloader fields) (byTimer : Bool) :
    TlsMaterialReloader fields :=
  let called := fun (reloader : TlsMaterialReloader fields) operation =>
    { reloader with callers := reloader.callers ++ [{ operation, byTimer, told := none }] }
  match reloader.reloadInFlight with
  | some operation => called reloader operation
  | none =>
    let operation := reloader.reloads.length
    called { reloader with
      reloadInFlight := some operation
      reloads := reloader.reloads ++ [⟨.loading, none, none, none, 0⟩] } operation

/-- A call of `#reloadOnce` has got further. -/
def advance (reloader : TlsMaterialReloader fields) (operation : ℕ) (next : Reload fields) :
    TlsMaterialReloader fields :=
  { reloader with reloads := reloader.reloads.set operation next }

/-- From `load` to `apply`; `validate` is called with the material. -/
def afterLoad (reloader : TlsMaterialReloader fields) (operation : ℕ) (reload : Reload fields)
    (outcome : Except String (TlsMaterial fields)) (validation : Except String Unit) :
    TlsMaterialReloader fields :=
  let reload := { reload with loaded := some outcome }
  match outcome with
  | .error error => reloader.advance operation { reload with stage := .settled (.error error) }
  | .ok material =>
    let reload := { reload with validated := some validation }
    match validation with
    | .error error => reloader.advance operation { reload with stage := .settled (.error error) }
    | .ok () =>
      let fingerprint := fingerprintMaterial sha256 material
      if fingerprint = reloader.fingerprint then
        reloader.advance operation { reload with stage := .settled (.ok .unchanged) }
      else
        reloader.advance operation { reload with
          stage := .applying material fingerprint, applications := reload.applications + 1 }

/-- After `apply`; `onReload` is called with the new material in place. -/
def afterApply (reloader : TlsMaterialReloader fields) (operation : ℕ) (reload : Reload fields)
    (material : TlsMaterial fields) (fingerprint : String) (outcome observer : Except String Unit) :
    TlsMaterialReloader fields :=
  let reload := { reload with applied := some outcome }
  match outcome with
  | .error error => reloader.advance operation { reload with stage := .settled (.error error) }
  | .ok () =>
    let reloader := { reloader with current := material, fingerprint }
    let reloader :=
      { reloader.observe observer with notifications := reloader.notifications + 1 }
    reloader.advance operation { reload with stage := .settled (.ok .updated) }

/-- The reaction to the settled promise. -/
def clearInFlight (reloader : TlsMaterialReloader fields) (operation : ℕ) :
    TlsMaterialReloader fields :=
  if reloader.reloadInFlight = some operation then { reloader with reloadInFlight := none }
  else reloader

/-- A caller is told how the promise has settled. -/
def deliver (reloader : TlsMaterialReloader fields) (index : ℕ) (caller : ReloadCaller)
    (result : Except String TlsReloadResult) (observer : Except String Unit) :
    TlsMaterialReloader fields :=
  let reloader := { reloader with
    callers := reloader.callers.set index { caller with told := some result } }
  match caller.byTimer, result with
  | true, .error error =>
    { reloader.observe observer with reports := reloader.reports ++ [error] }
  | _, _ => reloader

inductive Action (fields : List String)
  | reload (byTimer : Bool)
  /-- `load` settles, and `validate` is called if it has resolved. -/
  | loaded (operation : ℕ) (outcome : Except String (TlsMaterial fields))
      (validation : Except String Unit)
  /-- `apply` settles, and `onReload` is called if it has resolved. -/
  | applied (operation : ℕ) (outcome observer : Except String Unit)
  | clearInFlight (operation : ℕ)
  | delivered (index : ℕ) (observer : Except String Unit)

def step (reloader : TlsMaterialReloader fields) :
    Action fields → Option (TlsMaterialReloader fields)
  | .reload byTimer => some (reloader.reload byTimer)
  | .loaded operation outcome validation => reloader.reloads[operation]?.bind fun reload =>
    match reload.stage with
    | .loading => some (reloader.afterLoad sha256 operation reload outcome validation)
    | _ => none
  | .applied operation outcome observer => reloader.reloads[operation]?.bind fun reload =>
    match reload.stage with
    | .applying material fingerprint =>
      some (reloader.afterApply operation reload material fingerprint outcome observer)
    | _ => none
  | .clearInFlight operation => reloader.reloads[operation]?.bind fun reload =>
    match reload.stage with
    | .settled _ => some (reloader.clearInFlight operation)
    | _ => none
  | .delivered index observer => reloader.callers[index]?.bind fun caller =>
    reloader.reloads[caller.operation]?.bind fun reload =>
      match reload.stage with
      | .settled result => some (reloader.deliver index caller result observer)
      | _ => none

/-- The runs of a reloader that was initialized with the material. -/
def machine (material : TlsMaterial fields) :
    System.Machine (TlsMaterialReloader fields) (Action fields) where
  init reloader := reloader = initialized sha256 material
  step := step sha256

end TlsMaterialReloader
end ShieldWard.Edge
