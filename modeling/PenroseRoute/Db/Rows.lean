import PenroseRoute.Db.Models

/-!
# Rows that can be locked

What a transaction can hold until its end: rows by `FOR UPDATE`, and the advisory locks of
`pg_advisory_xact_lock`.
-/

namespace PenroseRoute.Db

/-- A row of a table, by its id, or an advisory lock. -/
inductive Row where
  | plan (id : UUID)
  | route (id : UUID)
  | stop (id : UUID)
  | order (id : UUID)
  | vehicle (id : UUID)
  | driver (id : UUID)
  | assignment (id : UUID)
  | merchant (id : UUID)
  | incident (id : UUID)
  | recoveryPlan (id : UUID)
  | alert (id : UUID)
  /-- `hashtext('planning:' || business_date)`. -/
  | planningDate (businessDate : BusinessDate)
  /-- `(55120, 1)`, the lock of `append_change`. -/
  | alertChanges
  deriving DecidableEq, Repr

end PenroseRoute.Db
