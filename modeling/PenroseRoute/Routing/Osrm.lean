import Mathlib.Algebra.Order.Ring.Rat
import Mathlib.Data.Rat.Floor
import PenroseRoute.Lib.Dict
import PenroseRoute.Recovery.Orchestration

/-!
# Road routes

Models the `build_route` of `backend/app/integrations/routing/osrm.py` on the payloads that an
OSRM server answers with. The distance of two points that are not equal, which the source works
out in floats, is a parameter: it only decides whether a payload is rejected.
-/

namespace PenroseRoute.Routing

open PenroseRoute.Db PenroseRoute.Lib

/-- A decoded JSON value; a number without a value is infinite or NaN. -/
inductive Json where
  | null
  | bool (value : Bool)
  | number (value : Option ℚ)
  | string (value : String)
  | array (items : List Json)
  | object (members : List (String × Json))

/-- A longitude and a latitude. -/
abbrev Point := ℚ × ℚ

/-- `value.get(key)` of a dictionary. -/
def Json.get (members : List (String × Json)) (key : String) : Json :=
  (lastWrite members key).getD .null

/-- The error of a payload that is not what OSRM documents. -/
def invalidResponse : AppError := .integration "ROAD_ROUTING_INVALID_RESPONSE"

/-- A `RoadRoute`, `osrm.py:14`, with the coordinates of its geometry. -/
structure Road where
  coordinates : List Point
  legEndIndices : List Nat
  distanceMeters : Nat
  durationSeconds : Nat

/-- What the server answers: to a place, and to places in order. -/
structure Server where
  nearest : Point → Except AppError Json
  route : List Point → Except AppError Json

namespace OsrmRoutingProvider

/-! ### Parts of a payload -/

/-- The checks of `_request` on a decoded payload, `osrm.py:44`. -/
def request : Json → Except AppError (List (String × Json))
  | .object members =>
    match Json.get members "code" with
    | .string code => do
      raiseFirst [
        (code == "NoRoute" || code == "NoSegment", .integration "ROAD_ROUTING_NO_ROUTE"),
        (code != "Ok", invalidResponse)]
      return members
    | _ => .error invalidResponse
  | _ => .error invalidResponse

/-- `_number`, `osrm.py:55`. -/
def number : Json → Except AppError ℚ
  | .number (some value) => if value < 0 then .error invalidResponse else .ok value
  | _ => .error invalidResponse

/-- One waypoint of `_snaps`, `osrm.py:64`. -/
def snap : Json → Except AppError Unit
  | .object members => do
    let distance ← number (Json.get members "distance")
    raiseFirst [(250 < distance, invalidResponse)]
  | _ => .error invalidResponse

/-- `_snaps`, `osrm.py:61`. -/
def snaps (count : Nat) : Json → Except AppError Unit
  | .array waypoints => do
    raiseFirst [(waypoints.length != count, invalidResponse)]
    let _ ← waypoints.mapM snap
    return ()
  | _ => .error invalidResponse

/-- A point is on the globe. -/
def onGlobe (point : Point) : Bool :=
  -180 ≤ point.1 && point.1 ≤ 180 && -90 ≤ point.2 && point.2 ≤ 90

/-- One coordinate of `_line`, `osrm.py:101`. -/
def coordinate : Json → Except AppError Point
  | .array [.number (some longitude), .number (some latitude)] =>
    if onGlobe (longitude, latitude) then .ok (longitude, latitude) else .error invalidResponse
  | _ => .error invalidResponse

/-- `_line`, `osrm.py:94`. -/
def line : Json → Except AppError (List Point)
  | .object members =>
    match Json.get members "type", Json.get members "coordinates" with
    | .string type, .array points => do
      raiseFirst [(type != "LineString", invalidResponse), (points.length < 2, invalidResponse)]
      points.mapM coordinate
    | _, _ => .error invalidResponse
  | _ => .error invalidResponse

/-! ### Waypoints -/

/-- The loop over the waypoints behind the first, `osrm.py:115`: the distinct places in a row,
and for each waypoint its position among them. -/
def mergeEqual (place : UUID → Point) : (distinct : List Point) → List UUID →
    List Point × List Nat
  | distinct, [] => (distinct, [])
  | distinct, waypoint :: rest =>
    let merged :=
      if distinct.getLast? = some (place waypoint) then distinct else distinct ++ [place waypoint]
    let (all, positions) := mergeEqual place merged rest
    (all, (merged.length - 1) :: positions)

/-! ### Legs -/

/-- One step of a leg, `osrm.py:149`: `near` says that two points are at most two metres
apart. -/
def appendStep (near : Point → Point → Bool) (isFirst : Bool) (coordinates points : List Point) :
    Except AppError (List Point) :=
  match coordinates.getLast?, points.head? with
  | none, _ => .ok points
  | some _, none => .error (.uncaught "IndexError")
  | some previous, some first =>
    if previous = first then .ok (coordinates ++ points.tail)
    else if !isFirst || !near previous first then .error invalidResponse
    else .ok (coordinates ++ points)

/-- `step.get("geometry") if isinstance(step, dict) else None`, `osrm.py:148`. -/
def stepGeometry : Json → Json
  | .object members => Json.get members "geometry"
  | _ => .null

/-- The steps of a leg, `osrm.py:147`. -/
def appendSteps (near : Point → Point → Bool) : (isFirst : Bool) → (coordinates : List Point) →
    List Json → Except AppError (List Point)
  | _, coordinates, [] => .ok coordinates
  | isFirst, coordinates, step :: rest => do
    let points ← line (stepGeometry step)
    let extended ← appendStep near isFirst coordinates points
    appendSteps near false extended rest

/-- The legs one after the other, `osrm.py:143`; `ends` are the indices at which they end. -/
def appendLegs (near : Point → Point → Bool) : (coordinates : List Point) → (ends : List Nat) →
    List Json → Except AppError (List Point × List Nat)
  | coordinates, ends, [] => .ok (coordinates, ends)
  | coordinates, ends, leg :: rest =>
    match leg with
    | .object members =>
      match Json.get members "steps" with
      | .array (step :: steps) => do
        let extended ← appendSteps near true coordinates (step :: steps)
        appendLegs near extended (ends ++ [extended.length - 1]) rest
      | _ => .error invalidResponse
    | _ => .error invalidResponse

/-! ### Routes -/

/-- `round(value)` of a number that is not negative: to the nearest one, halves to even. -/
def roundNumber (value : ℚ) : Nat :=
  let whole := ⌊value⌋.toNat
  if value - whole < 1 / 2 then whole
  else if 1 / 2 < value - whole then whole + 1
  else if whole % 2 = 0 then whole else whole + 1

/-- The road of a single place, `osrm.py:119`. -/
def buildStay (server : Server) (place : Point) (count : Nat) : Except AppError Road := do
  let payload ← request (← server.nearest place)
  snaps 1 (Json.get payload "waypoints")
  let snapped := match Json.get payload "waypoints" with
    | .array (.object members :: _) => Json.get members "location"
    | _ => .null
  let points ← line (.object
    [("type", .string "LineString"), ("coordinates", .array [snapped, snapped])])
  let point ← orRaise points.head? (.uncaught "IndexError")
  return ⟨[point, point], List.replicate count 1, 0, 0⟩

/-- The road through several places, `osrm.py:129`. -/
def buildTour (near : Point → Point → Bool) (server : Server) (distinct : List Point)
    (positions : List Nat) : Except AppError Road := do
  let payload ← request (← server.route distinct)
  snaps distinct.length (Json.get payload "waypoints")
  match Json.get payload "routes" with
  | .array (.object route :: _) =>
    match Json.get route "legs" with
    | .array legs => do
      raiseFirst [(legs.length != distinct.length - 1, invalidResponse)]
      let (coordinates, ends) ← appendLegs near [] [0] legs
      let legEndIndices ← positions.mapM fun position ↦
        orRaise ends[position]? (.uncaught "IndexError")
      let distance ← number (Json.get route "distance")
      let duration ← number (Json.get route "duration")
      return ⟨coordinates, legEndIndices, roundNumber distance, ⌈duration⌉.toNat⟩
    | _ => .error invalidResponse
  | _ => .error invalidResponse

/-- `build_route`, `osrm.py:110`, of locations with their places. -/
def buildRoute (near : Point → Point → Bool) (server : Server) (place : UUID → Point) :
    List UUID → Except AppError Road
  | first :: second :: rest =>
    let (distinct, positions) := mergeEqual place [place first] (second :: rest)
    if distinct.length = 1 then buildStay server (place first) (second :: rest).length
    else buildTour near server distinct positions
  | _ => .error (.uncaught "ValueError")

end OsrmRoutingProvider

/-! ### The provider -/

/-- A JSON column for geometries: what is written to it is read back. -/
structure JsonColumn where
  write : List Point → String
  read : String → Option (List Point)
  read_write : ∀ points, read (write points) = some points

/-- An OSRM server with the test for points that are close to one another, and the places of the
locations. -/
structure Osrm where
  near : Point → Point → Bool
  server : Server
  place : UUID → Point

/-- `build_route` of an `Osrm`. -/
def Osrm.buildRoute (osrm : Osrm) (waypoints : List UUID) : Except AppError Road :=
  OsrmRoutingProvider.buildRoute osrm.near osrm.server osrm.place waypoints

/-- The row of a road: its geometry goes into a JSON column. -/
def Road.row (column : JsonColumn) (road : Road) : Recovery.RoadRoute where
  geometry := column.write road.coordinates
  legEndIndices := road.legEndIndices
  distanceMeters := road.distanceMeters

/-- The `build_route` of the services when the provider is OSRM. -/
def Osrm.provide (osrm : Osrm) (column : JsonColumn) (waypoints : List UUID) :
    Except AppError Recovery.RoadRoute :=
  (osrm.buildRoute waypoints).map (·.row column)

/-- What is provided is the row of a road that was built. -/
theorem Osrm.provide_ok {osrm : Osrm} {column : JsonColumn} {waypoints : List UUID}
    {row : Recovery.RoadRoute} (h : osrm.provide column waypoints = .ok row) :
    ∃ road, osrm.buildRoute waypoints = .ok road ∧ row = road.row column := by
  unfold Osrm.provide at h
  cases hbuilt : osrm.buildRoute waypoints with
  | error error =>
    rw [hbuilt] at h
    cases h
  | ok road =>
    rw [hbuilt] at h
    cases h
    exact ⟨road, rfl, rfl⟩

end PenroseRoute.Routing
