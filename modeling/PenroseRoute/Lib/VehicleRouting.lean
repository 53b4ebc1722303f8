import PenroseRoute.Lib.RunningSum

/-!
# Constraint models of vehicle routing

The interface of a constraint-based routing solver: nodes with a start and an end node for
each vehicle, dimensions whose cumulated values grow along the routes, and the constraints
that can be posted on them. Indices are node numbers. Nothing here depends on the repository.
-/

namespace PenroseRoute.Lib

universe u

/-- A quantity accumulated along a route: transits between nodes, the slack a node may add,
and for each vehicle the bound of its cumulated values. -/
structure RoutingDimension where
  transit : Nat → Nat → Int
  slackMax : Int
  capacity : Nat → Int

/-- Constraints that can be posted on top of the dimensions; `δ` names the dimensions. -/
inductive RoutingConstraint (δ : Type u) where
  | cumulRange (dimension : δ) (node : Nat) (lo hi : Int)
  | cumulLe (dimension : δ) (first second : Nat)
  | vehicleIs (node vehicle : Nat)
  | sameVehicle (first second : Nat)
  | sameActive (first second : Nat)
  | pickupAndDelivery (pickup delivery : Nat)
  | disjunction (nodes : List Nat) (penalty : Nat)
  deriving DecidableEq, Repr

/-- A posted model. Arc costs and penalties steer the search and constrain nothing. -/
structure RoutingModel (δ : Type u) where
  numNodes : Nat
  starts : List Nat
  ends : List Nat
  arcCost : Nat → Nat → Nat
  dimension : δ → RoutingDimension
  constraints : List (RoutingConstraint δ)

/-- The values of the model's variables that a search returns. -/
structure RoutingAssignment (δ : Type u) where
  next : Nat → Nat
  active : Nat → Bool
  vehicle : Nat → Int
  cumul : δ → Nat → Int

/-- A relation between the consecutive nodes of the route from `i` over a path to `e`. -/
def Along (r : Nat → Nat → Prop) : Nat → List Nat → Nat → Prop
  | i, [], e => r i e
  | i, j :: rest, e => r i j ∧ Along r j rest e

/-- Without places between them the ends are related. -/
@[simp] theorem along_nil (r : Nat → Nat → Prop) (i e : Nat) : Along r i [] e ↔ r i e := Iff.rfl

/-- The first leg and then the rest of the way. -/
@[simp] theorem along_cons (r : Nat → Nat → Prop) (i j : Nat) (rest : List Nat) (e : Nat) :
    Along r i (j :: rest) e ↔ r i j ∧ Along r j rest e := Iff.rfl

/-- A weaker relation holds along the same route. -/
theorem Along.imp {r s : Nat → Nat → Prop} (hrs : ∀ i j, r i j → s i j) {i e : Nat}
    {path : List Nat} (h : Along r i path e) : Along s i path e := by
  induction path generalizing i with
  | nil => exact hrs _ _ h
  | cons j rest ih => exact ⟨hrs _ _ h.1, ih h.2⟩

namespace RoutingModel

variable {δ : Type u}

/-- A node visited on a vehicle's way from its start to its end. -/
def IsVisit (m : RoutingModel δ) (i : Nat) : Prop :=
  i < m.numNodes ∧ i ∉ m.starts ∧ i ∉ m.ends

/-- A node may be dropped when it stands in a disjunction. -/
def Optional (m : RoutingModel δ) (i : Nat) : Prop :=
  ∃ nodes penalty, .disjunction nodes penalty ∈ m.constraints ∧ i ∈ nodes

/-- What a posted constraint says of an assignment whose routes are `path`. -/
def Holds (a : RoutingAssignment δ) (path : Nat → List Nat) : RoutingConstraint δ → Prop
  | .cumulRange d i lo hi => lo ≤ a.cumul d i ∧ a.cumul d i ≤ hi
  | .cumulLe d i j => a.cumul d i ≤ a.cumul d j
  | .vehicleIs i k => a.vehicle i = k
  | .sameVehicle i j => a.vehicle i = a.vehicle j
  | .sameActive i j => a.active i = a.active j
  | .pickupAndDelivery i j =>
    a.active i = true → a.active j = true → ∃ k, [i, j].Sublist (path k)
  | .disjunction nodes _ => nodes.countP a.active ≤ 1

/-- The assignment routes the vehicles over `path` as the posted model demands. -/
structure Routes (m : RoutingModel δ) (a : RoutingAssignment δ) (path : Nat → List Nat) :
    Prop where
  follows : ∀ k s e, m.starts[k]? = some s → m.ends[k]? = some e →
    Along (fun i j ↦ a.next i = j) s (path k) e
  visits : ∀ k, ∀ i ∈ path k, k < m.starts.length ∧ m.IsVisit i
  nodup : ∀ k, (path k).Nodup
  vehicle : ∀ k, ∀ i ∈ path k, a.vehicle i = k
  active : ∀ i, m.IsVisit i → (a.active i = true ↔ ∃ k, i ∈ path k)
  mandatory : ∀ i, m.IsVisit i → ¬ m.Optional i → a.active i = true
  cumulated : ∀ d k s e, m.starts[k]? = some s → m.ends[k]? = some e →
    Along (fun i j ↦ ∃ slack, 0 ≤ slack ∧ slack ≤ (m.dimension d).slackMax ∧
      a.cumul d j = a.cumul d i + (m.dimension d).transit i j + slack) s (path k) e
  bounded : ∀ d k s e, m.starts[k]? = some s → m.ends[k]? = some e →
    ∀ i ∈ s :: path k ++ [e], 0 ≤ a.cumul d i ∧ a.cumul d i ≤ (m.dimension d).capacity k
  posted : ∀ c ∈ m.constraints, Holds a path c

/-- The assignment satisfies the posted model. -/
def Satisfies (m : RoutingModel δ) (a : RoutingAssignment δ) : Prop :=
  ∃ path, m.Routes a path

end RoutingModel

/-- A search over routing models: it may raise, find nothing, or return an assignment, and
what it returns satisfies the model it was given. -/
structure RoutingSearch (δ : Type u) where
  solve : RoutingModel δ → Except String (Option (RoutingAssignment δ))
  sound : ∀ m a, solve m = .ok (some a) → m.Satisfies a

/-! ### Reading routes off an assignment -/

/-- The nodes met from `i` on until the next one is an end; the fuel bounds the nodes. -/
def walk (isEnd : Nat → Bool) (next : Nat → Nat) : Nat → Nat → List Nat
  | 0, _ => []
  | fuel + 1, i => if isEnd (next i) then [] else next i :: walk isEnd next fuel (next i)

/-- The walk reads off the path when the fuel covers its length. -/
theorem walk_eq_path {isEnd : Nat → Bool} {next : Nat → Nat} {path : List Nat} {i e fuel : Nat}
    (hp : Along (fun i j ↦ next i = j) i path e) (he : isEnd e = true)
    (hn : ∀ j ∈ path, isEnd j = false) (hf : path.length ≤ fuel) :
    walk isEnd next fuel i = path := by
  induction path generalizing i fuel with
  | nil =>
    cases fuel with
    | zero => rfl
    | succ n =>
      rw [along_nil] at hp
      rw [walk, hp, if_pos he]
  | cons j rest ih =>
    cases fuel with
    | zero => exact absurd hf (by simp)
    | succ n =>
      obtain ⟨hj, hr⟩ := hp
      rw [walk, hj, hn j List.mem_cons_self, if_neg Bool.false_ne_true]
      rw [ih hr (fun k hk ↦ hn k (List.mem_cons_of_mem _ hk)) (by simpa using hf)]

/-- On the routes of a satisfying assignment the walk needs no more fuel than nodes. -/
theorem RoutingModel.Routes.walk_eq {δ : Type u} {m : RoutingModel δ} {a : RoutingAssignment δ}
    {path : Nat → List Nat} (h : m.Routes a path) {k s e : Nat} (hs : m.starts[k]? = some s)
    (he : m.ends[k]? = some e) :
    walk (fun i ↦ decide (i ∈ m.ends)) a.next m.numNodes s = path k := by
  have hlen : (path k).length ≤ (List.range m.numNodes).length := by
    apply (h.nodup k).length_le_of_subset
    intro i hi
    exact List.mem_range.mpr (h.visits k i hi).2.1
  apply walk_eq_path (h.follows k s e hs he)
  · exact decide_eq_true (List.mem_of_getElem? he)
  · intro i hi
    exact decide_eq_false (h.visits k i hi).2.2.2
  · simpa using hlen

/-! ### Dimensions along a route -/

/-- Values that never decrease along a route lie between those of its two ends. -/
theorem Along.cumul_between {f : Nat → Int} {s e : Nat} {path : List Nat}
    (h : Along (fun i j ↦ f i ≤ f j) s path e) :
    f s ≤ f e ∧ ∀ i ∈ path, f s ≤ f i ∧ f i ≤ f e := by
  induction path generalizing s with
  | nil => exact ⟨h, fun i hi ↦ absurd hi List.not_mem_nil⟩
  | cons j rest ih =>
    obtain ⟨hj, hr⟩ := h
    obtain ⟨hje, hrest⟩ := ih hr
    refine ⟨Int.le_trans hj hje, ?_⟩
    intro i hi
    rcases List.mem_cons.mp hi with rfl | hi
    · exact ⟨hj, hje⟩
    · exact ⟨Int.le_trans hj (hrest i hi).1, (hrest i hi).2⟩

/-- Along a route the step out of each node leads to a node of the route or to its end. -/
theorem Along.exists_next {r : Nat → Nat → Prop} {s e : Nat} {path : List Nat}
    (h : Along r s path e) {i : Nat} (hi : i ∈ path) : ∃ j, (j ∈ path ∨ j = e) ∧ r i j := by
  induction path generalizing s with
  | nil => exact absurd hi List.not_mem_nil
  | cons j rest ih =>
    rcases List.mem_cons.mp hi with rfl | hi
    · cases rest with
      | nil => exact ⟨e, .inr rfl, h.2⟩
      | cons k rest => exact ⟨k, .inl (by simp), h.2.1⟩
    · obtain ⟨k, hk, hr⟩ := ih h.2 hi
      exact ⟨k, hk.imp (List.mem_cons_of_mem _) id, hr⟩

/-- A dimension without slack whose transits are charged to the node they leave cumulates,
after each visit, the running sum of the charges. -/
theorem Along.runningWithin {f demand : Nat → Int} {lo hi : Int} {s e : Nat} {path : List Nat}
    (h : Along (fun i j ↦ f j = f i + demand i) s path e)
    (hb : ∀ i ∈ path ++ [e], lo ≤ f i ∧ f i ≤ hi) :
    RunningWithin lo hi (f s + demand s) (path.map demand) := by
  induction path generalizing s with
  | nil => trivial
  | cons j rest ih =>
    obtain ⟨hj, hr⟩ := h
    have hbr : ∀ i ∈ rest ++ [e], lo ≤ f i ∧ f i ≤ hi :=
      fun i hi ↦ hb i (List.mem_cons_of_mem _ hi)
    have hnext : lo ≤ f j + demand j ∧ f j + demand j ≤ hi := by
      cases rest with
      | nil =>
        rw [along_nil] at hr
        rw [← hr]
        exact hbr e (by simp)
      | cons k rest =>
        rw [← hr.1]
        exact hbr k (by simp)
    rw [List.map_cons, runningWithin_cons, ← hj]
    exact ⟨hnext, ih hr hbr⟩

end PenroseRoute.Lib
