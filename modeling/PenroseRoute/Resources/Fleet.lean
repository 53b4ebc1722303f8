import PenroseRoute.Db.Database

/-!
# The fleet

Models the writes of `FleetService` of `backend/app/modules/resources/fleet.py` that planning
and recovery read: the capacity and the status of a vehicle.
-/

namespace PenroseRoute.Resources

open PenroseRoute.Db PenroseRoute.Lib

/-- `replace_vehicle`, `fleet.py:92`, without the name, which nothing here reads. -/
def replaceVehicle (db : Database) (vehicleId : UUID) (capacityLoadUnits : Nat) :
    Except AppError Database := do
  let vehicle ← orRaise (db.vehicle? vehicleId) (.notFound "VEHICLE_NOT_FOUND")
  raiseFirst [(capacityLoadUnits == 0, .integrity "ck_vehicles_capacity")]
  return db.updateVehicle vehicle.id fun vehicle ↦
    { vehicle with capacityLoadUnits := capacityLoadUnits }

/-- `has_active_route_for_vehicle`, `fleet_repository.py:32`. -/
def hasActiveRouteForVehicle (db : Database) (vehicleId : UUID) : Bool :=
  db.plans.any fun plan ↦ plan.routes.any fun route ↦
    route.vehicleId == vehicleId && route.status == .active

/-- The guards of `update_vehicle_status`, `fleet.py:124`, once the status changes. -/
def statusGuards (db : Database) (vehicle : Vehicle) (target : ResourceStatus) :
    List (Bool × AppError) :=
  [(vehicle.status == .active && target == .unavailable,
      .conflict "VEHICLE_INCIDENT_WORKFLOW_REQUIRED"),
    (!([(.available, .unavailable), (.unavailable, .available)].contains (vehicle.status, target)),
      .conflict "INVALID_VEHICLE_STATUS_TRANSITION"),
    (vehicle.status == .available && target == .unavailable &&
      hasActiveRouteForVehicle db vehicle.id, .conflict "VEHICLE_NOT_AVAILABLE")]

/-- `update_vehicle_status`, `fleet.py:107`. -/
def updateVehicleStatus (db : Database) (vehicleId : UUID) (target : ResourceStatus) :
    Except AppError Database := do
  let vehicle ← orRaise (db.vehicle? vehicleId) (.notFound "VEHICLE_NOT_FOUND")
  if vehicle.status = target then
    return db
  else
    raiseFirst (statusGuards db vehicle target)
    return db.updateVehicle vehicle.id fun vehicle ↦ { vehicle with status := target }

end PenroseRoute.Resources
