import PenroseRoute.Planning.InputBuilder
import PenroseRoute.Planning.VersionOrder
import PenroseRoute.Resources.Orders

/-!
# Edits of the orders of a plan

The transactions of `OrderService` (`resources/orders.py`) beside those that write plans,
statement by statement and interleaved. A planner reads the facts of its orders again before it
commits, and an edit looks for a CURRENT plan of its order: these are plain reads, and only the
row of the edited order and the foreign keys of new memberships lock orders. Edits of merchants,
customers and locations are not here.
-/

namespace PenroseRoute.Planning

open PenroseRoute.Db PenroseRoute.Lib PenroseRoute.Resources

/-! ### Rows -/

/-- The committed rows. For each plan `solvedFrom` keeps the order facts from which it was solved,
or for a candidate those of its base plan; the memberships of a plan are their orders. -/
structure PlannedOrders where
  versions : List PlanVersion
  orders : List Order
  solvedFrom : UUID → List PlanningOrderFact

/-- The `order_id`s of `delivery_plan_orders` for a plan. -/
def PlannedOrders.members (table : PlannedOrders) (planId : UUID) : List UUID :=
  (table.solvedFrom planId).map (·.orderId)

/-- `get_orders_for_business_date`, `resource_repository.py:15`. -/
def ordersOn (orders : List Order) (businessDate : BusinessDate) : List Order :=
  (orders.filter (·.businessDate == businessDate)).insertionSort
    fun a b ↦ a.orderCode ≤ b.orderCode

/-- The facts that a planner materialises are those of these orders. -/
theorem loadFacts_orders (db : Database) (businessDate : BusinessDate) :
    (loadFacts db businessDate).orders =
      (ordersOn db.orders businessDate).map planningOrderFact := rfl

/-- The values of an order request; its locations have to be those of its parties. -/
structure OrderValues where
  businessDate : BusinessDate
  merchantId : UUID
  customerId : UUID
  pickupReadyAt : Instant
  pickupServiceSeconds : Nat
  deliveryWindowStartAt : Instant
  deliveryWindowEndAt : Instant
  deliveryServiceSeconds : Nat
  demandLoadUnits : Nat
  deriving DecidableEq, Repr

/-- The order after `replace_order`, `orders.py:78`. -/
def OrderValues.replace (values : OrderValues) (pickupLocationId deliveryLocationId : UUID)
    (order : Order) : Order :=
  { order with
    businessDate := values.businessDate
    merchantId := values.merchantId
    customerId := values.customerId
    pickupLocationId := pickupLocationId
    deliveryLocationId := deliveryLocationId
    pickupReadyAt := values.pickupReadyAt
    pickupServiceSeconds := values.pickupServiceSeconds
    deliveryWindowStartAt := values.deliveryWindowStartAt
    deliveryWindowEndAt := values.deliveryWindowEndAt
    deliveryServiceSeconds := values.deliveryServiceSeconds
    demandLoadUnits := values.demandLoadUnits }

/-- The order that `create_order` adds, `orders.py:51`. -/
def OrderValues.create (values : OrderValues) (id pickupLocationId deliveryLocationId : UUID)
    (orderCode : String) : Order :=
  values.replace pickupLocationId deliveryLocationId
    { id := id, orderCode := orderCode, businessDate := 0, merchantId := 0, customerId := 0
      pickupLocationId := 0, deliveryLocationId := 0, pickupReadyAt := 0
      pickupServiceSeconds := 0, deliveryWindowStartAt := 0, deliveryWindowEndAt := 0
      deliveryServiceSeconds := 0, demandLoadUnits := 0
      executionStatus := .planned, riskStatus := .normal }

/-- One row of the orders is rewritten. -/
def updateOrder (orders : List Order) (orderId : UUID) (f : Order → Order) : List Order :=
  orders.map fun order ↦ if order.id = orderId then f order else order

/-! ### Transactions -/

/-- Where `replace_order` is, `orders.py:69`. -/
inductive ReplacePoint where
  | locking
  /-- Holds the row. -/
  | holding (order : Order)
  /-- The order is PLANNED and in no CURRENT plan. -/
  | editable
  /-- Has written the row, with the locations of the parties. -/
  | flushed (pickupLocationId deliveryLocationId : UUID)
  deriving DecidableEq, Repr

/-- Where `advance_execution` is, `orders.py:94`. -/
inductive AdvancePoint where
  | locking
  | holding (order : Order)
  | flushed
  deriving DecidableEq, Repr

/-- A transaction on plans or on an order. A planner works with `facts`; `loaded` says that it has
read them again from the committed rows. -/
inductive OrderTransaction where
  | plan (t : PlanTransaction) (facts : PlanningFacts) (loaded : Bool)
  | create (values : OrderValues) (orderCode : String)
  | replace (orderId : UUID) (values : OrderValues) (point : ReplacePoint)
  | advance (orderId : UUID) (target : OrderExecutionStatus) (point : AdvancePoint)
  deriving DecidableEq, Repr

/-- The date whose facts a planner has to read before it goes on, `workflow.py:114` and `:170`. -/
def PlanTransaction.awaitsFacts : PlanTransaction → Option BusinessDate
  | .generate businessDate _ _ .checked => some businessDate
  | .confirm _ _ (.confirmed businessDate _) => some businessDate
  | _ => none

namespace OrderTransaction

/-- The orders whose rows a transaction holds FOR UPDATE. -/
def exclusive : OrderTransaction → List UUID
  | .replace _ _ .locking => []
  | .replace orderId _ _ => [orderId]
  | .advance _ _ .locking => []
  | .advance orderId _ _ => [orderId]
  | _ => []

/-- The orders whose rows the foreign key of new memberships holds FOR KEY SHARE; those of a
candidate are left out, which only admits more interleavings. -/
def shared : OrderTransaction → List UUID
  | .plan (.generate _ _ _ (.built _ _)) facts _ => facts.orders.map (·.orderId)
  | _ => []

/-- The transaction on plans. -/
def planning : OrderTransaction → Option PlanTransaction
  | .plan t _ _ => some t
  | _ => none

/-- Two transactions hold locks that exclude each other. -/
def Conflict (a b : OrderTransaction) : Prop :=
  (∃ t t', a.planning = some t ∧ b.planning = some t' ∧ t.Conflict t') ∨
    (∃ orderId ∈ a.exclusive, orderId ∈ b.exclusive ∨ orderId ∈ b.shared) ∨
    ∃ orderId ∈ b.exclusive, orderId ∈ a.shared

end OrderTransaction

/-- No plan of the order is CURRENT, `get_current_order_membership`. -/
def Unplanned (table : PlannedOrders) (orderId : UUID) : Prop :=
  ∀ row ∈ table.versions, row.status = .current → orderId ∉ table.members row.id

section
variable (sha256 : PlanningFacts → String) (seen : Set PlanningFacts)

/-- How a transaction begins. A planner works with facts among those that are seen at all: what it
has solved from, or what it will read to confirm a draft. -/
inductive OrderBegins : OrderTransaction → Prop where
  | generate (businessDate : BusinessDate) (draft : Bool) {facts : PlanningFacts}
      (hseen : facts ∈ seen) :
      OrderBegins (.plan (.generate businessDate draft (sha256 facts) .waiting) facts false)
  | confirm (planId : UUID) {facts : PlanningFacts} (hseen : facts ∈ seen) :
      OrderBegins (.plan (.confirm planId (sha256 facts) .selecting) facts false)
  | recover (basePlanId : UUID) (facts : PlanningFacts) :
      OrderBegins (.plan (.recover basePlanId .starting) facts false)
  | decide (basePlanId candidateId : UUID) (approve : Bool) (facts : PlanningFacts) :
      OrderBegins (.plan (.decide basePlanId candidateId approve .starting) facts false)
  | close (facts : PlanningFacts) : OrderBegins (.plan (.close []) facts false)
  | create (values : OrderValues) (orderCode : String) : OrderBegins (.create values orderCode)
  | replace (orderId : UUID) (values : OrderValues) :
      OrderBegins (.replace orderId values .locking)
  | advance (orderId : UUID) (target : OrderExecutionStatus) :
      OrderBegins (.advance orderId target .locking)

/-- One statement of a transaction. -/
inductive OrderStatement (table : PlannedOrders) : OrderTransaction → OrderTransaction → Prop where
  | plan {t t' facts loaded} (h : Statement table.versions t t')
      (hloaded : t.awaitsFacts.isSome = true → loaded = true) :
      OrderStatement table (.plan t facts loaded) (.plan t' facts loaded)
  /-- `_load_facts`, which reads the orders in one query, finds the facts of the planner. -/
  | load {t facts businessDate} (h : t.awaitsFacts = some businessDate)
      (hfacts : facts.orders = (ordersOn table.orders businessDate).map planningOrderFact) :
      OrderStatement table (.plan t facts false) (.plan t facts true)
  | lockReplaced {orderId values order} (hrow : order ∈ table.orders) (hid : order.id = orderId) :
      OrderStatement table (.replace orderId values .locking)
        (.replace orderId values (.holding order))
  | checkEditable {orderId values order} (hstatus : order.executionStatus = .planned)
      (hfree : Unplanned table orderId) :
      OrderStatement table (.replace orderId values (.holding order))
        (.replace orderId values .editable)
  | flushReplaced {orderId values} (pickupLocationId deliveryLocationId : UUID) :
      OrderStatement table (.replace orderId values .editable)
        (.replace orderId values (.flushed pickupLocationId deliveryLocationId))
  | lockAdvanced {orderId target order} (hrow : order ∈ table.orders) (hid : order.id = orderId) :
      OrderStatement table (.advance orderId target .locking)
        (.advance orderId target (.holding order))
  | flushAdvanced {orderId target order}
      (hnext : executionPath[executionPath.idxOf order.executionStatus + 1]? = some target) :
      OrderStatement table (.advance orderId target (.holding order))
        (.advance orderId target .flushed)

/-- The facts behind the plans that a transaction adds. -/
def addedFacts (table : PlannedOrders) (facts : PlanningFacts) :
    PlanTransaction → List PlanningOrderFact
  | .recover _ (.creating base _ _) => table.solvedFrom base.id
  | _ => facts.orders

/-- What a commit makes of the rows. -/
inductive OrderCommits (table : PlannedOrders) : OrderTransaction → PlannedOrders → Prop where
  | plan {t facts loaded versions solvedFrom} (h : PlanCommits table.versions t versions)
      (hloaded : t.awaitsFacts.isSome = true → loaded = true)
      (hold : ∀ row ∈ table.versions, solvedFrom row.id = table.solvedFrom row.id)
      (hnew : ∀ row ∈ versions, row.id ∉ table.versions.map (·.id) →
        solvedFrom row.id = addedFacts table facts t) :
      OrderCommits table (.plan t facts loaded) ⟨versions, table.orders, solvedFrom⟩
  | create {values orderCode id pickupLocationId deliveryLocationId}
      (hid : id ∉ table.orders.map (·.id)) (hcode : orderCode ∉ table.orders.map (·.orderCode)) :
      OrderCommits table (.create values orderCode) { table with
        orders := table.orders ++
          [values.create id pickupLocationId deliveryLocationId orderCode] }
  | replace {orderId values pickupLocationId deliveryLocationId} :
      OrderCommits table (.replace orderId values (.flushed pickupLocationId deliveryLocationId))
        { table with
          orders := updateOrder table.orders orderId
            (values.replace pickupLocationId deliveryLocationId) }
  | advance {orderId target} :
      OrderCommits table (.advance orderId target .flushed) { table with
        orders := updateOrder table.orders orderId
          fun order ↦ { order with executionStatus := target } }

/-- The transactions on plans and orders. -/
def plansAndOrders : Protocol PlannedOrders OrderTransaction where
  begins := OrderBegins sha256 seen
  statement := OrderStatement
  conflict := OrderTransaction.Conflict
  commits := OrderCommits

end

end PenroseRoute.Planning
