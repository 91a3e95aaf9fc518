import BelugaManager.Foundation.CodeUnits

/-!
# Words of all resources

The enumerations of `schema/health.ts` and `schema/service.ts`, and the warnings that come
with a listing.
-/

namespace BelugaManager.DomainApi

open Foundation

inductive HealthStatus where
  | healthy
  | degraded
  | stale
  | unknown
  | unavailable
  deriving DecidableEq, Repr

inductive ServiceType where
  | kafka
  | flink
  | iceberg
  | trino
  | airflow
  | superset
  | kubernetes
  | observability
  deriving DecidableEq, Repr

structure ListWarning where
  code : String
  message : JsString
  serviceId : Option String
  deriving DecidableEq

end BelugaManager.DomainApi
