import DungeonHub.Handlers
import DungeonHub.Logging

/-!
# Administration

`admin/admin.cpp`. The trace ids that are generated come from a source of their own, and what the
logger is told is kept. What the server itself logs is left out, as everywhere.
-/

namespace DungeonHub

structure AdminStatus where
  activeSessions : ℕ
  packetsTotal : ℕ
  bytesTotal : ℕ
  errorTotal : ℕ
  uptime : ℤ
  deriving DecidableEq

/-- The arguments of `StructuredLogger::log`. -/
structure LogCall where
  level : Str
  event : Str
  message : Str
  fields : LogFields

/-- The service with its server: when this was started, and the trace ids that its sessions have. -/
structure AdminService (σ : Type) where
  server : Server σ
  startTime : Time
  traceId : ℕ → Str
  requestTraceIds : Draws Str
  logged : List LogCall := []

namespace AdminService

variable {σ : Type}

/-- `logger_.log(…)`. -/
def log (a : AdminService σ) (level event message : String) (fields : LogFields) : AdminService σ :=
  { a with logged := a.logged ++ [⟨str level, str event, str message, fields⟩] }

/-- `duration_cast` cuts the nanoseconds off towards zero. -/
def getStatus (a : AdminService σ) (now : Time) : AdminStatus × AdminService σ :=
  let status : AdminStatus :=
    { activeSessions := a.server.sessions.size
      packetsTotal := a.server.metrics.packetsTotal
      bytesTotal := a.server.metrics.bytesTotal
      errorTotal := a.server.metrics.errorTotal
      uptime := (now - a.startTime).tdiv 1000000000 }
  let (requestTraceId, requestTraceIds) := a.requestTraceIds.next
  (status, { a with requestTraceIds }.log "info" "admin_status" "Admin status requested"
    { requestTraceId := some requestTraceId })

def forceTerminateSession (a : AdminService σ) (sessionId : UInt64) (reason : Str) :
    Bool × AdminService σ :=
  let (requestTraceId, requestTraceIds) := a.requestTraceIds.next
  let a := { a with requestTraceIds }
  let fields : LogFields :=
    { requestTraceId := some requestTraceId, sessionId := some sessionId, reason := some reason }
  match a.server.findSession sessionId.toNat with
  | none => (false, a.log "warn" "admin_force_disconnect" "Session not found" fields)
  | some _ =>
    let a := a.log "info" "admin_force_disconnect" "Admin terminating session"
      { fields with sessionTraceId := some (a.traceId sessionId.toNat) }
    let (disconnected, server) := a.server.forceDisconnect sessionId.toNat
    (disconnected, { a with server })

end AdminService

/-- Something happens to the server, or the administrator asks for something. -/
inductive AdminEvent where
  | server (e : ServerEvent)
  | getStatus (now : Time)
  | forceTerminateSession (sessionId : UInt64) (reason : Str)

def adminStep {σ : Type} [InventoryStorage σ] (a : AdminService σ) : AdminEvent → AdminService σ
  | .server e => { a with server := serverStep a.server e }
  | .getStatus now => (a.getStatus now).2
  | .forceTerminateSession sessionId reason => (a.forceTerminateSession sessionId reason).2

end DungeonHub
